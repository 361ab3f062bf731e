import Cinegraph.Identity.Rotation

/-!
What a presented token still has to be when a call that it was resolved for takes effect.
-/

namespace Cinegraph.Identity

open Library IdentitySessionService
open Transaction (Commits commits_pure commits_throw commits_map Within within_lift)

/-- Who presented the token of a call that changes an account or revokes sessions of it. -/
def Call.caller? : Call → Option Caller
  | .updatingDisplayName caller _ | .changingPassword caller _ | .revokingSession caller _
  | .revokingAll caller => some caller
  | _ => none

section Live

variable [Sha256] {service : IdentitySessionService} {s t : State} {action : Action}
  {caller : Caller}

/-- The session of the presented token is unrevoked, unexpired and that of the account. -/
def Live (s : State) (caller : Caller) : Prop :=
  ∃ session, Presents s.store caller s.clock session

/-- No step taken while `revoke_session` is between its two units of work ends the session that it
was called with. -/
def Undisturbed (service : IdentitySessionService) (s : State) (action : Action) : Prop :=
  ∀ t, service.step s action = some t → ∀ thread caller sessionId,
    s.calls thread = some (.revokingSession caller sessionId) →
    t.calls thread = some (.revokingSession caller sessionId) → Live s caller → Live t caller

/-- A unit of work that takes effect only where a session is live. -/
theorem live_of_commits {work : UnitOfWork Outcome} {thread : Nat} {clock : DateTime}
    (commits : Commits work (fun _ _ => Live s caller) s.store s.store)
    (changed : (s.perform thread clock (fun outcome => .finished (.ok outcome)) work).store ≠
      s.store) : Live s caller := by
  rcases State.perform_cases commits with ⟨_, _, live, -⟩ | ⟨error, done⟩
  · exact live
  · rw [done] at changed
    exact absurd rfl changed

/-- Three of the four mutations check the session again in the unit of work that mutates. -/
theorem Invariant.live_of_resume (invariant : Invariant service s) {thread elapsed : Nat}
    {generated : Generated} {call : Call} (pending : s.calls thread = some call)
    (presented : call.caller? = some caller)
    (checks : ∀ caller sessionId, call ≠ .revokingSession caller sessionId)
    (taken : service.step s (.resume thread elapsed generated) = some t)
    (changed : t.store ≠ s.store) : Live s caller := by
  have keyed := invariant.sound.keyed
  cases call with
  | updatingDisplayName presenter displayName =>
      cases presented
      rw [step_resume pending rfl] at taken
      cases taken
      exact live_of_commits (commits_map.mpr
        (commits_updateDisplayName.mono fun _ _ found => found.2)) changed
  | changingPassword presenter command =>
      cases presented
      rw [step_resume pending rfl] at taken
      cases taken
      exact live_of_commits (commits_map.mpr
        ((commits_changePassword keyed).mono fun _ _ found => found.2.2)) changed
  | revokingSession presenter sessionId => exact absurd rfl (checks presenter sessionId)
  | revokingAll presenter =>
      cases presented
      rw [step_resume pending rfl] at taken
      cases taken
      exact live_of_commits (commits_map.mpr
        ((commits_revokeAll keyed).mono fun _ _ found => found.2)) changed
  | _ => cases presented

/-- A call of `revoke_session` that is under way was so before the step, or has just begun with a
live session. -/
theorem Invariant.revokingSession_of_step (invariant : Invariant service s) {thread : Nat}
    {sessionId : UUID} (taken : service.step s action = some t)
    (pending : t.calls thread = some (.revokingSession caller sessionId)) :
    s.calls thread = some (.revokingSession caller sessionId) ∨ Live t caller := by
  cases action with
  | tick micros =>
      cases taken
      exact .inl pending
  | begin other request generated =>
      simp only [step] at taken
      split at taken
      · cases taken
        have commits := commits_begins service s.clock generated request invariant.sound.keyed
        rcases State.perform_cases commits with ⟨call, after, ⟨-, begun⟩, done⟩ | ⟨error, done⟩
        · rw [done] at pending ⊢
          rcases held_update pending with ⟨-, same⟩ | before
          · cases same
            obtain ⟨rfl, session, presents⟩ := begun
            exact .inr ⟨session, presents⟩
          · exact .inl before
        · rw [done] at pending
          rcases held_update pending with ⟨-, same⟩ | before
          · cases same
          · exact .inl before
      · cases taken
  | readClock other =>
      simp only [step] at taken
      split at taken
      · cases taken
        rcases held_update pending with ⟨-, same⟩ | before
        · cases same
        · exact .inl before
      · cases taken
  | resume other elapsed generated =>
      obtain ⟨call, found, rest⟩ := Option.bind_eq_some_iff.mp taken
      obtain ⟨work, resumed, rest⟩ := Option.bind_eq_some_iff.mp rest
      cases rest
      rcases held_update pending with ⟨-, same⟩ | before
      · split at same <;> cases same
      · exact .inl before

/-- While nothing disturbs them, calls of `revoke_session` wait with a live session. -/
theorem live_of_run {clock : DateTime}
    (run : Run service.step (Undisturbed service) (.initial clock) s) {thread : Nat}
    {sessionId : UUID} (pending : s.calls thread = some (.revokingSession caller sessionId)) :
    Live s caller := by
  suffices Invariant service s ∧ ∀ thread caller sessionId,
      s.calls thread = some (.revokingSession caller sessionId) → Live s caller from
    this.2 thread caller sessionId pending
  apply run.invariant (I := fun s => Invariant service s ∧ ∀ thread caller sessionId,
    s.calls thread = some (.revokingSession caller sessionId) → Live s caller)
  · exact ⟨invariant_of_run (C := fun _ _ => True) .start, fun _ _ _ found => nomatch found⟩
  · rintro s t action ⟨invariant, live⟩ undisturbed taken
    refine ⟨invariant.after_step taken, fun thread caller sessionId pending => ?_⟩
    rcases invariant.revokingSession_of_step taken pending with before | begun
    · exact undisturbed t taken thread caller sessionId before pending
        (live thread caller sessionId before)
    · exact begun

/-- A call that takes effect on behalf of a token does so where the session of the token is live:
`update_display_name`, `change_password` and `revoke_all` in every run, and `revoke_session` in the
runs where nothing ends that session between the two units of work. -/
theorem mutations_need_live_session (service : IdentitySessionService) (clock : DateTime)
    (s t : State) (thread elapsed : Nat) (generated : Generated) (call : Call) (caller : Caller)
    (pending : s.calls thread = some call) (presented : call.caller? = some caller)
    (taken : service.step s (.resume thread elapsed generated) = some t)
    (changed : t.store ≠ s.store) :
    (Run service.step (fun _ _ => True) (.initial clock) s →
      (∀ caller sessionId, call ≠ .revokingSession caller sessionId) → Live s caller) ∧
    (Run service.step (Undisturbed service) (.initial clock) s → Live s caller) := by
  constructor
  · intro run checks
    exact (invariant_of_run run).live_of_resume pending presented checks taken changed
  · intro run
    cases call with
    | revokingSession presenter sessionId =>
        cases presented
        exact live_of_run run pending
    | _ =>
        exact (invariant_of_run run).live_of_resume pending presented
          (fun _ _ same => nomatch same) taken changed

end Live

namespace IdentitySamples

attribute [local instance] digests

/-- A second session of the account, and a request by the first to revoke it. -/
def revocation : List Action :=
  registration ++ [
    .begin 0 (.authenticate ⟨"asha@example.org", "correct horse", none⟩)
      (generated 4 "b" "correct horse"),
    .resume 0 0 (generated 4 "b" "correct horse"),
    .begin 1 (.revokeSession "a" ⟨4⟩) (generated 5 "c" "")]

/-- Whether a revocation of a state would take effect, and the caller's session is live or not. -/
def revokes (live : Bool) (s : State) : Bool :=
  match s.calls 1, service.step s (.resume 1 0 (generated 5 "c" "")) with
  | some (.revokingSession caller _), some t =>
      t.store ≠ s.store ∧ (s.store.sessions.get? (Sha256.hexdigest caller.token)).any
        (fun session => session.isActive s.clock && session.principal = caller.principal) = live
  | _, _ => false

theorem exists_of_revokes {live : Bool} {s : State} (success : revokes live s = true) :
    ∃ caller sessionId t, s.calls 1 = some (.revokingSession caller sessionId) ∧
      service.step s (.resume 1 0 (generated 5 "c" "")) = some t ∧ t.store ≠ s.store ∧
      (Live s caller → live = true) := by
  unfold revokes at success
  split at success
  · rename_i caller sessionId t pending taken
    obtain ⟨changed, same⟩ := of_decide_eq_true success
    refine ⟨caller, sessionId, t, pending, taken, changed, ?_⟩
    rintro ⟨session, stored, active, principal⟩
    rw [← same, stored, Option.any_some, active, Bool.true_and]
    exact decide_eq_true principal
  · cases success

example : revokes false (.initial ⟨.utc, 0⟩) = false := by decide +kernel

/-- The first session is logged out between the two units of work of its request. -/
theorem revoked_after_logout :
    ∃ s t caller sessionId, Run service.step (fun _ _ => True) (.initial ⟨.utc, 0⟩) s ∧
      s.calls 1 = some (.revokingSession caller sessionId) ∧
      service.step s (.resume 1 0 (generated 5 "c" "")) = some t ∧ t.store ≠ s.store ∧
      ¬Live s caller := by
  obtain ⟨s, run, success⟩ := Run.exists_of_checked service.step (fun _ _ => True)
    (.initial ⟨.utc, 0⟩) (revocation ++ [.begin 2 (.revoke "a") (generated 6 "c" "")])
    (revokes false) (by decide +kernel)
  obtain ⟨caller, sessionId, t, pending, taken, changed, live⟩ := exists_of_revokes success
  exact ⟨s, t, caller, sessionId, run, pending, taken, changed,
    fun holds => Bool.false_ne_true (live holds)⟩

/-- A step that leaves the sessions of the store, and the clock, as they are. -/
def Quiet (s : State) (action : Action) : Prop :=
  match service.step s action with
  | some t => t.clock = s.clock ∧
      ∀ key ∈ s.store.sessions.keys, t.store.sessions.get? key = s.store.sessions.get? key
  | none => True

instance (s : State) (action : Action) : Decidable (Quiet s action) := by
  unfold Quiet
  split <;> infer_instance

theorem undisturbed_of_quiet (s : State) (action : Action) (quiet : Quiet s action) :
    Undisturbed service s action := by
  rintro t taken thread caller sessionId - - ⟨session, stored, active, principal⟩
  rw [Quiet, taken] at quiet
  refine ⟨session, ?_, ?_, principal⟩
  · rw [quiet.2 _ (Dict.mem_keys_of_get? stored)]
    exact stored
  · rw [quiet.1]
    exact active

/-- A session is revoked by another one of the account that nobody ends. -/
theorem mutations_need_live_session_sample :
    ∃ s t caller sessionId, Run service.step (Undisturbed service) (.initial ⟨.utc, 0⟩) s ∧
      s.calls 1 = some (.revokingSession caller sessionId) ∧
      service.step s (.resume 1 0 (generated 5 "c" "")) = some t ∧ t.store ≠ s.store ∧
      Live s caller := by
  obtain ⟨s, run, success⟩ := Run.exists_of_checked service.step Quiet (.initial ⟨.utc, 0⟩)
    revocation (revokes true) (by decide +kernel)
  obtain ⟨caller, sessionId, t, pending, taken, changed, -⟩ := exists_of_revokes success
  have undisturbed := run.mono undisturbed_of_quiet
  exact ⟨s, t, caller, sessionId, undisturbed, pending, taken, changed,
    (mutations_need_live_session service ⟨.utc, 0⟩ s t 1 0 _ _ caller pending rfl taken
      changed).2 undisturbed⟩

end IdentitySamples

end Cinegraph.Identity
