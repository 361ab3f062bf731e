import Cinegraph.Identity.Sessions

/-!
Accounts and sessions over whole runs: the cap on active sessions, the e-mail addresses, what can
become of a session, and what a password change leaves.
-/

namespace Cinegraph.Identity

open Library IdentitySessionService
open SessionRecord (Later)
open Transaction (Commits commits_pure commits_throw commits_commit commits_map Within within_pure
  within_throw within_read within_write within_lift within_ite within_raiseIf)

section Units

variable [Sha256] {service : IdentitySessionService} {s t : Store} {now later : DateTime}
  {generated : Generated}

/-- The change that a session of an account makes where the events say why it is issued. -/
theorem changed_of_issueAuthenticated {owner : UserAccount} {before : Store} {clock : DateTime}
    (evolves : s.Evolves before) (keyed : s.Keyed) (order : now ≤ clock)
    (justified : before.events.head? = some (.verified owner.userId) ∨
      before.events.head? = some (.registered owner.userId)) :
    Within (service.issueAuthenticated owner now generated) (fun _ t =>
      Changed service.configuration.maximumActiveAuthenticatedSessions generated.token clock s t)
      before := by
  apply (within_issueAuthenticated (evolves.accounts keyed)).mono
  rintro grant t ⟨between, session, more, events, rfl, fits, -, room⟩
  apply Changed.issued (evolves.trans more) order fits
  · rintro userId ⟨⟩
    exact room
  · rintro userId ⟨⟩
    rw [events]
    exact justified

theorem commits_register {account : UserAccount} {current : Option String} (keyed : s.Keyed)
    (order : now ≤ later) :
    Commits (service.register account current now generated) (fun _ t =>
      Changed service.configuration.maximumActiveAuthenticatedSessions generated.token later s t)
      s s := by
  unfold register
  apply Commits.rethrow
  apply Within.commits
  apply within_read
  apply Within.commits
  apply within_raiseIf
  intro _
  apply Within.commits
  apply (within_revokeCurrentIfValid keyed).mono
  rintro _ revoked ⟨evolves, -⟩
  apply Within.commits
  apply Within.bind
  apply within_read
  apply Within.bind
  apply within_raiseIf
  intro _
  apply within_write
  apply Within.commits
  apply within_write
  apply Within.commits
  have added : s.Evolves ((revoked.saveAccount account.email account).record
      (.registered account.userId)) := (evolves.trans .saveAccount).trans (.record _)
  apply (changed_of_issueAuthenticated added keyed order (.inr rfl)).mono
  exact fun grant t changed => commits_commit changed

theorem commits_authenticate {account : UserAccount} {command : AuthenticateAccountCommand}
    (keyed : s.Keyed) (order : now ≤ later) :
    Commits (service.authenticate account command now generated) (fun _ t =>
      Changed service.configuration.maximumActiveAuthenticatedSessions generated.token later s t)
      s s := by
  unfold authenticate
  apply Within.commits
  apply within_read
  split
  · exact commits_throw _
  · rename_i lockedAccount _
    apply Within.commits
    apply within_raiseIf
    intro _
    apply Within.commits
    apply within_raiseIf
    intro _
    apply Within.commits
    apply within_requireCredentials.mono
    rintro _ _ rfl
    have verified : s.Evolves (s.record (.verified lockedAccount.userId)) := .record _
    apply Within.commits
    apply (within_revokeCurrentIfValid (verified.accounts keyed)).mono
    rintro _ revoked ⟨evolves, events⟩
    apply Within.commits
    apply (changed_of_issueAuthenticated (verified.trans evolves) keyed order _).mono
    · exact fun grant t changed => commits_commit changed
    · rw [events]
      exact .inl rfl

theorem within_issueGuest {before : Store} {clock : DateTime} {limit : Nat}
    (evolves : s.Evolves before) (order : now ≤ clock) :
    Within (service.issueGuest now generated) (fun _ t =>
      Changed limit generated.token clock s t) before := by
  apply within_issue.mono
  rintro grant t ⟨session, rfl, fits, -⟩
  exact .issued evolves order fits (fun _ owner => nomatch owner) (fun _ owner => nomatch owner)

/-- The session that a caller presents, and what is checked of it. -/
structure Presents (s : Store) (caller : Caller) (now : DateTime) (session : SessionRecord) :
    Prop where
  stored : s.sessions.get? (Sha256.hexdigest caller.token) = some session
  active : session.isActive now = true
  principal : session.principal = caller.principal

theorem within_requireActivePresentedSession {caller : Caller} :
    Within (requireActivePresentedSession caller now)
      (fun _ t => t = s ∧ ∃ session, Presents s caller now session) s := by
  unfold requireActivePresentedSession
  apply Within.bind
  apply within_lift
  intro digest hashed
  apply Within.bind
  apply within_read
  split
  · exact within_throw _
  · rename_i session found
    apply within_raiseIf
    intro passes
    rw [not_or, not_or, not_not, not_not] at passes
    rw [eq_hexdigest hashed] at found
    exact ⟨rfl, session, found, passes.1, passes.2.1⟩

omit [Sha256] in
theorem within_saveAccount {userId : UUID} {account updated : UserAccount}
    (found : s.getByUserId userId = some account) (owner : account.SameOwner updated) :
    Within (UserAccountRepository.save updated)
      (fun _ t => t = s.saveAccount updated.email updated) s := by
  have same : s.getByUserId updated.userId = some account := by
    rw [owner.userId, Store.getByUserId_userId found]
    exact found
  unfold UserAccountRepository.save
  apply Within.bind
  apply within_read
  rw [same]
  apply Within.bind
  apply within_raiseIf
  intro _
  apply within_write
  rw [owner.email]

/-- What is left where all active sessions of a user are revoked. -/
structure RevokesAll (userId profileId : UUID) (now : DateTime) (s t : Store) : Prop where
  evolves : s.Evolves t
  events : t.events = s.events
  none_active : t.activeSessions userId profileId now = []

omit [Sha256] in
theorem within_revokeAllForUser {userId profileId : UUID} (keyed : s.Keyed) :
    Within (SessionRepository.revokeAllForUser userId profileId now)
      (fun _ t => RevokesAll userId profileId now s t) s := by
  unfold SessionRepository.revokeAllForUser
  apply Within.bind
  apply within_read
  apply Within.bind
  apply (within_revokeEach keyed _ (Store.nodup_digests keyed)).mono
  · rintro _ t ⟨evolves, -, events, gone⟩
    refine within_pure _ ⟨evolves, events, List.eq_nil_iff_forall_not_mem.mpr fun session active => ?_⟩
    have before := evolves.mem_activeSessions keyed (DateTime.le_refl now) active
    exact gone session before (List.mem_of_mem_filter active)
  · intro session active
    obtain ⟨stored, -, active⟩ := (Store.mem_activeSessions keyed).mp active
    exact ⟨stored, active⟩

theorem commits_updateDisplayName {caller : Caller} {displayName : String} :
    Commits (updateDisplayName caller displayName now) (fun _ t =>
      s.Evolves t ∧ ∃ session, Presents s caller now session) s s := by
  unfold updateDisplayName
  apply Within.commits
  apply within_requireActiveAccount.mono
  rintro account _ ⟨rfl, found, -⟩
  apply Within.commits
  apply within_requireActivePresentedSession.mono
  rintro _ _ ⟨rfl, presents⟩
  apply Within.commits
  apply within_lift
  intro updated ok
  apply Within.commits
  apply (within_saveAccount found (UserAccount.withDisplayName_owner ok)).mono
  rintro _ _ rfl
  exact commits_commit ⟨.saveAccount, presents⟩

/-- What a password change leaves: the session it issued is the only one of the account. -/
def Rotates (caller : Caller) (later : DateTime) (grant : SessionGrant) (t : Store) : Prop :=
  ∃ session, t.listActiveForUser caller.userId caller.principal.profileId later none = [session] ∧
    Fits session grant.token (.authenticated caller.principal.profileId caller.userId) later

theorem rotates_of_issue {between : Store} {caller : Caller} {session : SessionRecord}
    {grant : SessionGrant} (keyed : between.Keyed)
    (none_active : between.activeSessions caller.userId caller.principal.profileId later = [])
    (fits : Fits session grant.token (.authenticated caller.principal.profileId caller.userId) later) :
    Rotates caller later grant (between.issue session) := by
  refine ⟨session, ?_, fits⟩
  have keyedAfter := keyed.issue session
  have alone (current : SessionRecord) (active : current ∈ (between.issue session).activeSessions
      caller.userId caller.principal.profileId later) : current = session := by
    rcases Store.mem_activeSessions_issue keyed active with same | before
    · exact same
    · rw [none_active] at before
      cases before
  have issued : session ∈ (between.issue session).activeSessions
      caller.userId caller.principal.profileId later := by
    have owned : session.ownedBy caller.userId caller.principal.profileId = true := by
      rw [SessionRecord.ownedBy, fits.principal]
      exact decide_eq_true ⟨rfl, rfl⟩
    have found : (between.issue session).sessions.get? session.tokenSha256 = some session := by
      rw [Store.get?_issue, if_pos rfl]
    exact (Store.mem_activeSessions keyedAfter).mpr ⟨found, owned, fits.active⟩
  have few := Store.length_activeSessions_le keyedAfter caller.userId
    caller.principal.profileId later [session.tokenSha256]
    fun current active => List.mem_singleton.mpr (congrArg _ (alone current active))
  have perm := Store.perm_listActiveForUser (between.issue session) caller.userId
    caller.principal.profileId later
  rw [← perm.length_eq] at few
  have member := perm.mem_iff.mpr issued
  generalize Store.listActiveForUser _ _ _ _ _ = listed at few member
  rcases listed with _ | ⟨first, _ | ⟨second, rest⟩⟩
  · cases member
  · rw [List.mem_singleton.mp member]
  · rw [List.length_cons, List.length_cons, List.length_singleton] at few
    omega

theorem commits_changePassword {caller : Caller} {command : ChangePasswordCommand} (keyed : s.Keyed) :
    Commits (service.changePassword caller command now later generated) (fun grant t =>
      Changed service.configuration.maximumActiveAuthenticatedSessions generated.token later s t ∧
        Rotates caller later grant t ∧ ∃ session, Presents s caller now session) s s := by
  unfold changePassword
  apply Within.commits
  apply within_requireActiveAccount.mono
  rintro account _ ⟨rfl, found, profile⟩
  have user := Store.getByUserId_userId found
  apply Within.commits
  apply within_requireActivePresentedSession.mono
  rintro _ before ⟨rfl, presents⟩
  apply Within.commits
  apply within_requireCredentials.mono
  rintro _ _ rfl
  apply Within.commits
  apply within_lift
  intro updated ok
  have owner := UserAccount.withPasswordHash_owner ok
  have same : updated.userId = caller.userId := owner.userId.trans user
  have sameProfile : updated.profileId = caller.principal.profileId := owner.profileId.trans profile
  apply Within.commits
  apply (within_saveAccount (s := before.record (.verified account.userId)) found owner).mono
  rintro _ _ rfl
  have saved : before.Evolves ((before.record (.verified account.userId)).saveAccount updated.email
      updated) := (Store.Evolves.record _).trans .saveAccount
  apply Within.commits
  apply Within.discard
  apply (within_revokeAllForUser (saved.accounts keyed)).mono
  rintro _ cleared ⟨evolves, events, none_active⟩
  have clearedKeyed := evolves.accounts (saved.accounts keyed)
  apply Within.commits
  apply (within_issueAuthenticated clearedKeyed).mono
  rintro grant t ⟨between, session, more, sameEvents, rfl, fits, token, room⟩
  rw [same, sameProfile] at fits room
  have rotates : Rotates caller later grant (between.issue session) := by
    apply rotates_of_issue (more.accounts clearedKeyed)
    · rw [List.eq_nil_iff_forall_not_mem]
      intro current active
      have before := more.mem_activeSessions clearedKeyed (DateTime.le_refl later) active
      rw [none_active] at before
      cases before
    · rw [token]
      exact fits
  have changed : Changed service.configuration.maximumActiveAuthenticatedSessions _ _ _ _ := .issued
    ((saved.trans evolves).trans more) (DateTime.le_refl later) fits
    (fun userId owner => by cases owner; exact room)
    (fun userId owner => by
      cases owner
      rw [sameEvents, events, ← user]
      exact .inl rfl)
  exact commits_commit ⟨changed, rotates, presents⟩

theorem commits_revokeAll {caller : Caller} (keyed : s.Keyed) :
    Commits (revokeAll caller now later) (fun _ t =>
      s.Evolves t ∧ ∃ session, Presents s caller now session) s s := by
  unfold revokeAll
  apply Within.commits
  apply Within.discard
  apply within_requireActiveAccount.mono
  rintro account _ ⟨rfl, -, -⟩
  apply Within.commits
  apply within_requireActivePresentedSession.mono
  rintro _ _ ⟨rfl, presents⟩
  apply Within.commits
  apply Within.discard
  apply (within_revokeAllForUser keyed).mono
  exact fun _ t revokes => commits_commit (a := ()) ⟨revokes.evolves, presents⟩

omit [Sha256] in
theorem commits_revokeSession {caller : Caller} {sessionId : UUID} (keyed : s.Keyed) :
    Commits (revokeSession caller sessionId now) (fun _ t => s.Evolves t) s s := by
  have repository : Within (SessionRepository.revokeSession sessionId caller.userId
      caller.principal.profileId now) (fun _ t => s.Evolves t) s := by
    unfold SessionRepository.revokeSession
    apply Within.bind
    apply within_read
    split
    · exact within_pure _ (.refl s)
    · rename_i session found
      apply within_ite
      · intro passes
        have stored := List.mem_of_find?_eq_some found
        obtain ⟨key, stored⟩ := (Dict.mem_values_iff _ _).mp stored
        apply Within.bind
        apply within_lift
        intro revoked ok
        apply Within.bind
        apply within_write
        have active := (Bool.and_eq_true_iff.mp passes).2
        exact within_pure _ (Store.Evolves.revoke keyed stored (.of_revoke active ok))
      · exact fun _ => within_pure _ (.refl s)
  unfold revokeSession
  apply Within.commits
  apply repository.mono
  intro revoked t evolves
  split
  · exact commits_commit evolves
  · exact commits_pure _ (.refl s)

theorem commits_revoke {token : String} (keyed : s.Keyed) :
    Commits (revoke token now) (fun _ t => s.Evolves t) s s := by
  unfold revoke
  apply Within.commits
  apply within_lift
  intro digest hashed
  apply Within.commits
  apply within_read
  split
  · exact commits_throw _
  · rename_i session found
    apply Within.commits
    apply within_raiseIf
    intro active
    rw [not_not] at active
    apply Within.commits
    apply within_lift
    intro revoked ok
    apply Within.commits
    apply within_write
    exact commits_commit (a := ()) (Store.Evolves.revoke keyed found (.of_revoke active ok))

/-- What a unit of work with a token generated does to a store at an instant. -/
def Keeps (service : IdentitySessionService) (token : String) (clock : DateTime) (s t : Store) :
    Prop :=
  Changed service.configuration.maximumActiveAuthenticatedSessions token clock s t

/-- Resolving a token changes nothing; its session is active. -/
theorem within_resolveCaller {token : String} :
    Within (resolveCaller token now)
      (fun caller t => t = s ∧ ∃ session, Presents s caller now session) s := by
  unfold resolveCaller
  apply Within.bind
  have resolved : Within (resolveGrant token now) (fun grant t => t = s ∧ ∃ session,
      s.sessions.get? (Sha256.hexdigest token) = some session ∧ session.isActive now = true ∧
        session.principal = grant.principal) s := by
    unfold resolveGrant
    apply Within.bind
    apply within_lift
    intro digest hashed
    rw [eq_hexdigest hashed]
    apply Within.bind
    apply within_read
    split
    · exact within_throw _
    · rename_i session found
      apply Within.bind
      apply within_raiseIf
      intro passes
      rw [not_or, not_not] at passes
      split
      · exact within_throw _
      · apply Within.bind
        apply within_requireActiveAccount.mono
        rintro account _ ⟨rfl, -⟩
        exact within_pure _ ⟨rfl, session, found, passes.1, rfl⟩
      · exact within_pure _ ⟨rfl, session, found, passes.1, rfl⟩
  apply resolved.mono
  rintro grant _ ⟨rfl, session, found, active, principal⟩
  apply Within.bind
  apply within_raiseIf
  intro _
  split
  · exact within_throw _
  · exact within_pure _ ⟨rfl, session, found, active, principal⟩

/-- A call that has read the clock has not read it in the future. -/
def Call.Timed (clock : DateTime) : Call → Prop
  | .registering _ _ now => now ≤ clock
  | .issuingGuest now => now ≤ clock
  | _ => True

/-- What is known of a call that began on a store at an instant, and left another. -/
def Call.Begun (s : Store) (now : DateTime) (t : Store) : Call → Prop
  | .registering _ _ begun => begun ≤ now
  | .issuingGuest begun => begun ≤ now
  | .revokingSession caller _ => t = s ∧ ∃ session, Presents s caller now session
  | _ => True

theorem Call.Begun.timed {call : Call} (begun : call.Begun s now t) : call.Timed now := by
  cases call with
  | registering account current begunAt => exact begun
  | issuingGuest begunAt => exact begun
  | _ => trivial

theorem commits_beginGuest {current : Option String} (keyed : s.Keyed) :
    Commits (service.beginGuest current now generated)
      (fun call t => Keeps service generated.token now s t ∧ call.Begun s now t) s s := by
  have unchanged : Keeps service generated.token now s s := .evolved (.refl s)
  unfold beginGuest
  split
  · exact commits_pure _ ⟨unchanged, trivial⟩
  · exact commits_pure _ ⟨unchanged, trivial⟩
  · apply Within.commits
    apply within_read
    split
    · exact commits_pure _ ⟨unchanged, trivial⟩
    · rename_i existing found
      split
      · exact commits_pure _ ⟨unchanged, trivial⟩
      · exact commits_throw _
      · apply Within.commits
        apply within_requireActiveAccount.mono
        rintro account _ ⟨rfl, -, -⟩
        apply Within.commits
        exact within_raiseIf fun _ => commits_pure _ ⟨unchanged, trivial⟩
      · rename_i active _
        apply Within.commits
        apply within_lift
        intro revoked ok
        apply Within.commits
        apply within_write
        apply Within.commits
        apply (within_issueGuest (Store.Evolves.revoke keyed found (.of_revoke active ok))
          (DateTime.le_refl now)).mono
        exact fun _ t changed => commits_commit ⟨changed, trivial⟩

variable (service generated now) in
theorem commits_begins (request : Request) (keyed : s.Keyed) :
    Commits (service.begins now generated request)
      (fun call t => Keeps service generated.token now s t ∧ call.Begun s now t) s s := by
  have unchanged : Keeps service generated.token now s s := .evolved (.refl s)
  cases request with
  | register command =>
      change Commits (service.beginRegister command now generated) _ s s
      unfold beginRegister
      apply Within.commits
      apply within_lift
      intro email _
      apply Within.commits
      apply within_lift
      intro _ _
      apply Within.commits
      apply within_lift
      intro _ _
      apply Within.commits
      apply within_lift
      intro account _
      exact commits_pure _ ⟨unchanged, DateTime.le_refl now⟩
  | authenticate command =>
      change Commits (service.beginAuthenticate command) _ s s
      unfold beginAuthenticate
      apply Within.commits
      apply within_lift
      intro email _
      apply Within.commits
      apply within_lift
      intro _ _
      apply Within.commits
      apply within_read
      dsimp only
      split
      · exact commits_throw _
      · exact commits_throw _
      · apply Within.commits
        exact within_raiseIf fun _ => commits_pure _ ⟨unchanged, trivial⟩
  | issueGuest current => exact commits_beginGuest keyed
  | updateDisplayName token displayName =>
      apply Within.commits
      apply within_lift
      intro _ _
      apply Within.commits
      exact within_resolveCaller.mono fun caller t _ => commits_pure _ ⟨unchanged, trivial⟩
  | changePassword token command =>
      apply Within.commits
      apply within_resolveCaller.mono
      intro caller t _
      apply Within.commits
      apply within_lift
      intro _ _
      apply Within.commits
      apply within_lift
      intro _ _
      apply Within.commits
      apply within_lift
      intro _ _
      exact commits_pure _ ⟨unchanged, trivial⟩
  | revokeSession token sessionId =>
      apply Within.commits
      exact within_resolveCaller.mono fun caller t found =>
        commits_pure _ ⟨unchanged, rfl, found.2⟩
  | revokeAll token =>
      apply Within.commits
      exact within_resolveCaller.mono fun caller t _ => commits_pure _ ⟨unchanged, trivial⟩
  | revoke token =>
      apply commits_map.mpr
      exact (commits_revoke keyed).mono fun _ t evolves => ⟨.evolved evolves, trivial⟩

theorem commits_resumes {call : Call} {work : UnitOfWork Outcome} (keyed : s.Keyed)
    (order : now ≤ later) (timed : call.Timed now)
    (resumed : service.resumes now later generated call = some work) :
    Commits work (fun _ t => Keeps service generated.token later s t) s s := by
  cases call with
  | registering account current begun =>
      cases resumed
      exact commits_map.mpr (commits_register keyed (DateTime.le_trans timed order))
  | authenticating account command =>
      cases resumed
      exact commits_map.mpr (commits_authenticate keyed order)
  | awaitingClock => cases resumed
  | issuingGuest begun =>
      cases resumed
      apply Within.commits
      apply (within_issueGuest (.refl s) (DateTime.le_trans timed order)).mono
      exact fun grant t changed => commits_commit (a := Outcome.granted grant) changed
  | updatingDisplayName caller displayName =>
      cases resumed
      apply commits_map.mpr
      exact commits_updateDisplayName.mono fun _ t found => .evolved found.1
  | changingPassword caller command =>
      cases resumed
      apply commits_map.mpr
      exact (commits_changePassword keyed).mono fun _ t found => found.1
  | revokingSession caller sessionId =>
      cases resumed
      apply commits_map.mpr
      exact (commits_revokeSession keyed).mono fun _ t evolves => .evolved evolves
  | revokingAll caller =>
      cases resumed
      apply commits_map.mpr
      exact (commits_revokeAll keyed).mono fun _ t found => .evolved found.1
  | finished result => cases resumed

end Units

/-- What the generators give to a step, where it asks them. -/
def IdentitySessionService.Action.generated? : Action → Option Generated
  | .begin _ _ generated | .resume _ _ generated => some generated
  | .tick _ | .readClock _ => none

section Runs

variable [Sha256] {service : IdentitySessionService} {s t : State} {action : Action}

/-- The token generator does not repeat itself and SHA-256 does not collide: the digest of a
generated token is not that of a stored session. -/
def Fresh (s : State) (action : Action) : Prop :=
  ∀ generated ∈ action.generated?,
    s.store.sessions.get? (Sha256.hexdigest generated.token) = none

structure Invariant (service : IdentitySessionService) (s : State) : Prop where
  sound : Sound service.configuration.maximumActiveAuthenticatedSessions s.clock s.store
  timed : ∀ thread call, s.calls thread = some call → call.Timed s.clock

omit [Sha256] in
theorem Call.Timed.later {call : Call} {clock later : DateTime} (timed : call.Timed clock)
    (order : clock ≤ later) : call.Timed later := by
  cases call with
  | registering account current now => exact DateTime.le_trans timed order
  | issuingGuest now => exact DateTime.le_trans timed order
  | _ => trivial

omit [Sha256] in
theorem le_add (clock : DateTime) (elapsed : Nat) : clock ≤ clock.add elapsed := by
  change clock.micros ≤ clock.micros + (elapsed : Int)
  omega

/-- What one step does: time does not go back, and a store that changes does so by the unit of work
of a token that was generated for it. -/
structure Steps (service : IdentitySessionService) (s : State) (action : Action) (t : State) :
    Prop where
  order : s.clock ≤ t.clock
  timed : ∀ thread call, t.calls thread = some call → call.Timed t.clock
  store : t.store = s.store ∨ ∃ generated, action.generated? = some generated ∧
    Keeps service generated.token t.clock s.store t.store

omit [Sha256] in
/-- A thread's call moves on in time. -/
theorem Invariant.timed_update (invariant : Invariant service s) {thread : Nat} {clock : DateTime}
    {call : Call} (order : s.clock ≤ clock) (timed : call.Timed clock) (other : Nat) (found : Call)
    (held : Function.update s.calls thread (some call) other = some found) : found.Timed clock := by
  rcases held_update held with ⟨-, rfl⟩ | before
  · exact timed
  · exact (invariant.timed other found before).later order

theorem steps_perform {α : Type} {thread : Nat} {clock : DateTime} {next : α → Call}
    {work : UnitOfWork α} {generated : Generated} (invariant : Invariant service s)
    (order : s.clock ≤ clock) (asked : action.generated? = some generated)
    (commits : Commits work (fun a t => Keeps service generated.token clock s.store t ∧
      (next a).Timed clock) s.store s.store) :
    Steps service s action (s.perform thread clock next work) := by
  rcases State.perform_cases commits with ⟨a, after, ⟨keeps, timed⟩, done⟩ | ⟨error, done⟩
  · rw [done]
    exact ⟨order, invariant.timed_update order timed, .inr ⟨generated, asked, keeps⟩⟩
  · rw [done]
    exact ⟨order, invariant.timed_update order trivial, .inl rfl⟩

theorem Invariant.steps (invariant : Invariant service s) (taken : service.step s action = some t) :
    Steps service s action t := by
  have keyed := invariant.sound.keyed
  cases action with
  | tick micros =>
      cases taken
      have order := le_add s.clock micros
      exact ⟨order, fun thread call found => (invariant.timed thread call found).later order, .inl rfl⟩
  | begin thread request generated =>
      simp only [step] at taken
      split at taken
      · cases taken
        exact steps_perform invariant (DateTime.le_refl _) rfl
          ((commits_begins _ _ _ _ keyed).mono fun _ _ found => ⟨found.1, found.2.timed⟩)
      · cases taken
  | readClock thread =>
      simp only [step] at taken
      split at taken
      · cases taken
        have order := DateTime.le_refl s.clock
        exact ⟨order, invariant.timed_update order order, .inl rfl⟩
      · cases taken
  | resume thread elapsed generated =>
      obtain ⟨call, found, rest⟩ := Option.bind_eq_some_iff.mp taken
      obtain ⟨work, resumed, rest⟩ := Option.bind_eq_some_iff.mp rest
      cases rest
      have order := le_add s.clock elapsed
      have commits := commits_resumes keyed order (invariant.timed thread call found) resumed
      exact steps_perform invariant order rfl (commits.mono fun _ _ keeps => ⟨keeps, trivial⟩)

theorem Invariant.after_step (invariant : Invariant service s)
    (taken : service.step s action = some t) : Invariant service t := by
  obtain ⟨order, timed, same | ⟨generated, -, keeps⟩⟩ := invariant.steps taken
  · refine ⟨?_, timed⟩
    rw [same]
    exact invariant.sound.evolves order (.refl s.store)
  · exact ⟨invariant.sound.changed order keeps, timed⟩

theorem invariant_of_run {C : State → Action → Prop} {clock : DateTime}
    (run : Run service.step C (.initial clock) s) : Invariant service s :=
  run.invariant ⟨sound_empty, fun _ _ found => nomatch found⟩
    fun _ _ _ invariant _ taken => invariant.after_step taken

/-- A session that is stored stays so, and once it is not active it never is again. -/
theorem Invariant.kept (invariant : Invariant service s) (run : Run service.step Fresh s t)
    {key : String} {session : SessionRecord} (stored : s.store.sessions.get? key = some session) :
    s.clock ≤ t.clock ∧ ∃ now, t.store.sessions.get? key = some now ∧ Later session now := by
  suffices Invariant service t ∧ s.clock ≤ t.clock ∧
      ∃ now, t.store.sessions.get? key = some now ∧ Later session now from this.2
  apply run.invariant (I := fun t => Invariant service t ∧ s.clock ≤ t.clock ∧
    ∃ now, t.store.sessions.get? key = some now ∧ Later session now)
  · exact ⟨invariant, DateTime.le_refl _, session, stored, .inl rfl⟩
  · rintro before after action ⟨invariant, order, now, found, step⟩ fresh taken
    obtain ⟨passes, -, same | ⟨generated, asked, keeps⟩⟩ := invariant.steps taken
    · refine ⟨invariant.after_step taken, DateTime.le_trans order passes, now, ?_, step⟩
      rw [same]
      exact found
    · obtain ⟨next, foundNext, more⟩ := keeps.get? (fresh generated asked) found
      exact ⟨invariant.after_step taken, DateTime.le_trans order passes, next, foundNext,
        step.trans more⟩

omit [Sha256] in
/-- The e-mail addresses of the accounts of a store differ. -/
theorem nodup_emails {s : Store} (keyed : s.Keyed) : (s.accounts.values.map (·.email)).Nodup := by
  have same : s.accounts.values.map (·.email) = s.accounts.keys := by
    rw [Dict.values, Dict.keys, List.map_map]
    apply List.map_congr_left
    rintro ⟨key, account⟩ member
    exact keyed.accounts key account ((Dict.mem_entries_iff _ _ _).mp member)
  rw [same]
  exact s.accounts.nodup_keys

end Runs

namespace IdentitySamples

/-- SHA-256 on the tokens of the samples. -/
@[reducible] def digests : Sha256 where
  hexdigest text :=
    if text = "a" then "ca978112ca1bbdcafac231b39a23dc4da786eff8147c4e72b9807785afee48bb"
    else if text = "b" then "3e23e8160039594a33894f6564e1b1348bbd7a0088d42c4acb73eeaed59c009d"
    else "2e7d2c03a9507ae265ecf5b5356885a53393a2029d241394997265a1a25aefc6"
  isDigest_hexdigest text := by
    split
    · decide
    · split <;> decide

def service : IdentitySessionService where
  configuration := DEFAULT_AUTHENTICATION_CONFIGURATION
  verifyPassword password passwordHash := passwordHash == "hash of " ++ password
  dummyPasswordHash := "hash of xxxxxxxxxxxx"

def generated (sessionId : BitVec 128) (token password : String) : Generated where
  userId := ⟨1⟩
  profileId := ⟨2⟩
  sessionId := ⟨sessionId⟩
  token := token
  passwordHash := "hash of " ++ password

/-- An account is registered; its session has the first token. -/
def registration : List Action :=
  [.begin 0 (.register ⟨"asha@example.org", "correct horse", "Asha", none⟩)
      (generated 3 "a" "correct horse"),
    .resume 0 0 (generated 3 "a" "correct horse")]

attribute [local instance] digests

instance (s : State) (action : Action) : Decidable (Fresh s action) := by
  unfold Fresh
  infer_instance

/-- Whether a password change of a state is about to succeed. -/
def changes (s : State) (action : Action) : Bool :=
  match s.calls 0, service.step s action with
  | some (.changingPassword _ _), some t =>
      match t.calls 0 with
      | some (.finished (.ok (.granted _))) => true
      | _ => false
  | _, _ => false

theorem exists_of_changes {s : State} {action : Action} (success : changes s action = true) :
    ∃ caller command t grant, s.calls 0 = some (.changingPassword caller command) ∧
      service.step s action = some t ∧ t.calls 0 = some (.finished (.ok (.granted grant))) := by
  unfold changes at success
  split at success
  · split at success
    · exact ⟨_, _, _, _, ‹_›, ‹_›, ‹_›⟩
    · cases success
  · cases success

end IdentitySamples

end Cinegraph.Identity
