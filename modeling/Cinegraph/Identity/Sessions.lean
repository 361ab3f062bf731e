import Cinegraph.Identity.Service
import Mathlib.Data.Option.Basic
import Mathlib.Data.List.Perm.Subperm
import Mathlib.Data.List.Sort

/-!
What the parts of the units of work do to the store: what can become of a session, which sessions
are active, and how many of an account are when one is issued.
-/

namespace Cinegraph.Identity

open Library Exec
open Transaction (Commits commits_pure commits_throw commits_commit commits_map Within within_pure within_throw within_read within_write within_lift within_ite
  within_raiseIf)

/-- What can become of a stored session: it is revoked, once. -/
def SessionRecord.Later (before after : SessionRecord) : Prop :=
  after = before ∨ before.revokedAt = none ∧ ∃ revokedAt, before.revoke revokedAt = .ok after

namespace SessionRecord

variable {session before between after : SessionRecord} {now later : DateTime}

theorem revoke_ok (ok : before.revoke now = .ok after) :
    after.revokedAt = some now ∧ after.tokenSha256 = before.tokenSha256 ∧
      after.principal = before.principal ∧ after.expiresAt = before.expiresAt := by
  unfold revoke at ok
  split at ok
  · cases ok
    exact ⟨rfl, rfl, rfl, rfl⟩
  · cases ok

theorem isActive_iff : session.isActive now = true ↔
    session.revokedAt = none ∧ now < session.expiresAt := decide_eq_true_iff

theorem Later.of_revoke (active : before.isActive now = true)
    (ok : before.revoke later = .ok after) : Later before after :=
  .inr ⟨(isActive_iff.mp active).1, later, ok⟩

theorem Later.tokenSha256 (h : Later before after) : after.tokenSha256 = before.tokenSha256 := by
  rcases h with rfl | ⟨-, revokedAt, ok⟩
  · rfl
  · exact (revoke_ok ok).2.1

theorem Later.principal (h : Later before after) : after.principal = before.principal := by
  rcases h with rfl | ⟨-, revokedAt, ok⟩
  · rfl
  · exact (revoke_ok ok).2.2.1

theorem Later.trans (first : Later before between) (second : Later between after) :
    Later before after := by
  rcases second with rfl | ⟨unrevoked, again⟩
  · exact first
  · rcases first with rfl | ⟨-, revokedAt, ok⟩
    · exact .inr ⟨unrevoked, again⟩
    · have revoked := (revoke_ok ok).1
      rw [unrevoked] at revoked
      cases revoked

/-- A session that is still active has not changed, and was active before. -/
theorem Later.isActive (h : Later before after) (order : now ≤ later)
    (active : after.isActive later = true) : after = before ∧ before.isActive now = true := by
  have ⟨unrevoked, unexpired⟩ := isActive_iff.mp active
  rcases h with rfl | ⟨-, revokedAt, ok⟩
  · refine ⟨rfl, isActive_iff.mpr ⟨unrevoked, ?_⟩⟩
    change now.micros < after.expiresAt.micros
    change now.micros ≤ later.micros at order
    change later.micros < after.expiresAt.micros at unexpired
    omega
  · rw [(revoke_ok ok).1] at unrevoked
    cases unrevoked

theorem make_ok {sessionId : UUID} {digest : String} {principal : SessionPrincipal}
    {createdAt expiresAt : DateTime}
    (ok : make sessionId digest principal createdAt expiresAt = .ok session) :
    session.tokenSha256 = digest ∧ session.principal = principal ∧
      session.isActive createdAt = true := by
  unfold make at ok
  split at ok
  · split at ok
    · cases ok
      exact ⟨rfl, rfl, isActive_iff.mpr ⟨rfl, ‹_›⟩⟩
    · cases ok
  · cases ok

end SessionRecord

open SessionRecord (Later)

/-- Sessions are kept under their digests and accounts under their addresses. -/
structure Store.Keyed (s : Store) : Prop where
  sessions : ∀ key session, s.sessions.get? key = some session → session.tokenSha256 = key
  accounts : ∀ key account, s.accounts.get? key = some account → account.email = key

/-- No session is added or lost, and none changes except by its revocation. -/
def Revised (before after : Dict String SessionRecord) : Prop :=
  ∀ key, Option.Rel Later (before.get? key) (after.get? key)

theorem Revised.refl (sessions : Dict String SessionRecord) : Revised sessions sessions := by
  intro key
  cases sessions.get? key with
  | none => exact .none
  | some session => exact .some (.inl rfl)

theorem Revised.trans {a b c : Dict String SessionRecord} (first : Revised a b)
    (second : Revised b c) : Revised a c := by
  intro key
  have early := first key
  have late := second key
  generalize a.get? key = x, b.get? key = y, c.get? key = z at early late ⊢
  cases early with
  | none => exact late
  | some early =>
      cases late with
      | some late => exact .some (early.trans late)

theorem Revised.set {sessions : Dict String SessionRecord} {key : String}
    {session revoked : SessionRecord} (stored : sessions.get? key = some session)
    (later : Later session revoked) : Revised sessions (sessions.set key revoked) := by
  intro other
  rw [Dict.get?_set]
  split
  · rename_i same
    rw [same, stored]
    exact .some later
  · exact Revised.refl sessions other

theorem Revised.get? {before after : Dict String SessionRecord} (revised : Revised before after)
    {key : String} {session : SessionRecord} (stored : before.get? key = some session) :
    ∃ now, after.get? key = some now ∧ Later session now := by
  have related := revised key
  rw [stored] at related
  generalize after.get? key = found at related ⊢
  cases related with
  | some later => exact ⟨_, rfl, later⟩

theorem Revised.get?_back {before after : Dict String SessionRecord}
    (revised : Revised before after) {key : String} {session : SessionRecord}
    (stored : after.get? key = some session) :
    ∃ was, before.get? key = some was ∧ Later was session := by
  have related := revised key
  rw [stored] at related
  generalize before.get? key = found at related ⊢
  cases related with
  | some later => exact ⟨_, rfl, later⟩

/-- What the parts of a unit of work do that issue no session. -/
structure Store.Evolves (s t : Store) : Prop where
  sessions : Revised s.sessions t.sessions
  accounts : s.Keyed → t.Keyed
  events : s.events <:+ t.events

namespace Store

variable {s t u : Store} {userId profileId : UUID} {now later : DateTime}

theorem Evolves.refl (s : Store) : s.Evolves s := ⟨.refl _, id, List.suffix_refl _⟩

theorem Evolves.trans (first : s.Evolves t) (second : t.Evolves u) : s.Evolves u :=
  ⟨first.sessions.trans second.sessions, second.accounts ∘ first.accounts,
    first.events.trans second.events⟩

theorem Evolves.record (event : Event) : s.Evolves (s.record event) :=
  ⟨.refl _, fun keyed => ⟨keyed.sessions, keyed.accounts⟩, List.suffix_cons _ _⟩

/-- A store whose sessions are revised and whose accounts stay is as well keyed. -/
theorem Evolves.of_revised (revised : Revised s.sessions t.sessions)
    (accounts : t.accounts = s.accounts) (events : t.events = s.events) : s.Evolves t where
  sessions := revised
  accounts keyed := by
    constructor
    · intro key session stored
      obtain ⟨was, storedBefore, step⟩ := revised.get?_back stored
      rw [step.tokenSha256]
      exact keyed.sessions key was storedBefore
    · rw [accounts]
      exact keyed.accounts
  events := events ▸ List.suffix_refl _

theorem Evolves.revoke {session revoked : SessionRecord} (keyed : s.Keyed) {key : String}
    (stored : s.sessions.get? key = some session) (step : Later session revoked) :
    s.Evolves (s.saveSession revoked) := by
  have same : revoked.tokenSha256 = key := by rw [step.tokenSha256, keyed.sessions key session stored]
  have revised : Revised s.sessions (s.saveSession revoked).sessions := by
    change Revised s.sessions (s.sessions.set revoked.tokenSha256 revoked)
    rw [same]
    exact Revised.set stored step
  exact Evolves.of_revised revised rfl rfl

theorem Evolves.saveAccount {account : UserAccount} :
    s.Evolves (s.saveAccount account.email account) where
  sessions := Revised.refl _
  accounts keyed := by
    refine ⟨keyed.sessions, fun key stored found => ?_⟩
    change (s.accounts.set account.email account).get? key = some stored at found
    rw [Dict.get?_set] at found
    split at found
    · cases found
      exact Eq.symm ‹_›
    · exact keyed.accounts key stored found
  events := List.suffix_refl _

section Active

theorem mem_activeSessions {session : SessionRecord} (keyed : s.Keyed) :
    session ∈ s.activeSessions userId profileId now ↔
      s.sessions.get? session.tokenSha256 = some session ∧
        session.ownedBy userId profileId = true ∧ session.isActive now = true := by
  rw [activeSessions, List.mem_filter, Bool.and_eq_true, Dict.mem_values_iff]
  constructor
  · rintro ⟨⟨key, stored⟩, rest⟩
    exact ⟨(keyed.sessions key session stored) ▸ stored, rest⟩
  · rintro ⟨stored, rest⟩
    exact ⟨⟨_, stored⟩, rest⟩

theorem digests_of_sessions (keyed : s.Keyed) :
    s.sessions.values.map (·.tokenSha256) = s.sessions.keys := by
  rw [Dict.values, Dict.keys, List.map_map]
  apply List.map_congr_left
  rintro ⟨key, session⟩ member
  exact keyed.sessions key session ((Dict.mem_entries_iff _ _ _).mp member)

theorem nodup_digests (keyed : s.Keyed) :
    ((s.activeSessions userId profileId now).map (·.tokenSha256)).Nodup := by
  have whole : (s.sessions.values.map (·.tokenSha256)).Nodup := by
    rw [digests_of_sessions keyed]
    exact s.sessions.nodup_keys
  exact whole.sublist (List.filter_sublist.map _)

/-- There are at most as many active sessions as there are digests they can have. -/
theorem length_activeSessions_le (keyed : s.Keyed) (userId profileId : UUID) (now : DateTime)
    (digests : List String)
    (among : ∀ session ∈ s.activeSessions userId profileId now, session.tokenSha256 ∈ digests) :
    (s.activeSessions userId profileId now).length ≤ digests.length := by
  have subset : (s.activeSessions userId profileId now).map (·.tokenSha256) ⊆ digests := by
    intro digest member
    obtain ⟨session, active, rfl⟩ := List.mem_map.mp member
    exact among session active
  have bound := (List.subperm_of_subset (nodup_digests keyed) subset).length_le
  rwa [List.length_map] at bound

theorem perm_listActiveForUser (s : Store) (userId profileId : UUID) (now : DateTime) :
    (s.listActiveForUser userId profileId now none).Perm (s.activeSessions userId profileId now) :=
  List.perm_insertionSort _ _

theorem Evolves.mem_activeSessions (evolves : s.Evolves t) (keyed : s.Keyed) (order : now ≤ later)
    {session : SessionRecord} (active : session ∈ t.activeSessions userId profileId later) :
    session ∈ s.activeSessions userId profileId now := by
  obtain ⟨stored, owned, active⟩ := (Store.mem_activeSessions (evolves.accounts keyed)).mp active
  obtain ⟨was, storedBefore, step⟩ := evolves.sessions.get?_back stored
  obtain ⟨rfl, activeBefore⟩ := step.isActive order active
  exact (Store.mem_activeSessions keyed).mpr ⟨storedBefore, owned, activeBefore⟩

theorem Evolves.length_activeSessions_le (evolves : s.Evolves t) (keyed : s.Keyed)
    (order : now ≤ later) :
    (t.activeSessions userId profileId later).length ≤
      (s.activeSessions userId profileId now).length := by
  have bound := Store.length_activeSessions_le (evolves.accounts keyed) userId profileId later
    ((s.activeSessions userId profileId now).map (·.tokenSha256))
    fun session active => List.mem_map_of_mem (evolves.mem_activeSessions keyed order active)
  rwa [List.length_map] at bound

end Active

end Store

/-- What a loop over sessions leaves that revokes each of them. -/
structure Revokes (sessions : List SessionRecord) (s t : Store) : Prop where
  evolves : s.Evolves t
  accounts : t.accounts = s.accounts
  events : t.events = s.events
  gone : ∀ session ∈ sessions, session ∉ t.sessions.values

/-- What an issue adds to a store. -/
def Store.issue (s : Store) (session : SessionRecord) : Store :=
  (s.saveSession session).record (.issued session.tokenSha256)

namespace Store

variable {s : Store} {session current : SessionRecord} {userId profileId : UUID} {now : DateTime}

theorem get?_issue (key : String) : (s.issue session).sessions.get? key =
    if key = session.tokenSha256 then some session else s.sessions.get? key :=
  Dict.get?_set _ _ _ _

theorem Keyed.issue (keyed : s.Keyed) (session : SessionRecord) : (s.issue session).Keyed := by
  refine ⟨fun key stored found => ?_, keyed.accounts⟩
  rw [get?_issue] at found
  split at found
  · cases found
    exact Eq.symm ‹_›
  · exact keyed.sessions key stored found

theorem mem_activeSessions_issue (keyed : s.Keyed)
    (active : current ∈ (s.issue session).activeSessions userId profileId now) :
    current = session ∨ current ∈ s.activeSessions userId profileId now := by
  obtain ⟨found, owned, active⟩ := (mem_activeSessions (keyed.issue session)).mp active
  rw [get?_issue] at found
  split at found
  · cases found
    exact .inl rfl
  · exact .inr ((mem_activeSessions keyed).mpr ⟨found, owned, active⟩)

end Store

/-- A session that is issued with a token. -/
structure Fits [Sha256] (session : SessionRecord) (token : String) (principal : SessionPrincipal)
    (now : DateTime) : Prop where
  tokenSha256 : session.tokenSha256 = Sha256.hexdigest token
  principal : session.principal = principal
  active : session.isActive now = true

section Parts

open IdentitySessionService

variable [Sha256] {service : IdentitySessionService} {s : Store} {now : DateTime}
  {generated : Generated}

omit [Sha256] in
theorem within_revokeEach {sessions : List SessionRecord} (keyed : s.Keyed)
    (stored : ∀ session ∈ sessions,
      s.sessions.get? session.tokenSha256 = some session ∧ session.isActive now = true)
    (distinct : (sessions.map (·.tokenSha256)).Nodup) :
    Within (SessionRepository.revokeEach now sessions) (fun _ t => Revokes sessions s t) s := by
  induction sessions generalizing s with
  | nil => exact within_pure _ ⟨.refl s, rfl, rfl, fun _ member => nomatch member⟩
  | cons session rest ih =>
      obtain ⟨absent, distinct⟩ := List.nodup_cons.mp distinct
      obtain ⟨here, active⟩ := stored session List.mem_cons_self
      apply Within.bind
      apply within_lift
      intro revoked ok
      have first := Store.Evolves.revoke keyed here (.of_revoke active ok)
      obtain ⟨revokedAt, same, -, -⟩ := SessionRecord.revoke_ok ok
      apply Within.bind
      apply within_write
      have others : ∀ other ∈ rest, (s.saveSession revoked).sessions.get? other.tokenSha256 =
          some other ∧ other.isActive now = true := by
        intro other member
        have differs : other.tokenSha256 ≠ revoked.tokenSha256 := by
          rw [same]
          intro equal
          exact absent (List.mem_map.mpr ⟨other, member, equal⟩)
        obtain ⟨storedOther, activeOther⟩ := stored other (List.mem_cons_of_mem _ member)
        exact ⟨(Dict.get?_set_of_ne _ _ differs).trans storedOther, activeOther⟩
      apply (ih (first.accounts keyed) others distinct).mono
      intro _ t later
      refine ⟨first.trans later.evolves, later.accounts, later.events, ?_⟩
      rw [List.forall_mem_cons]
      refine ⟨fun member => ?_, later.gone⟩
      -- what is stored under the digest of the session has been revoked
      obtain ⟨key, found⟩ := (Dict.mem_values_iff _ _).mp member
      have named := (later.evolves.accounts (first.accounts keyed)).sessions key session found
      have written : (s.saveSession revoked).sessions.get? key = some revoked := by
        rw [← named, ← same]
        exact Dict.get?_set_self _ _ _
      obtain ⟨was, storedBefore, step⟩ := later.evolves.sessions.get?_back found
      cases written.symm.trans storedBefore
      have unchanged := step.isActive (DateTime.le_refl now) active
      have unrevoked := (SessionRecord.isActive_iff.mp unchanged.2).1
      rw [revokedAt] at unrevoked
      cases unrevoked

theorem within_revokeCurrentIfValid {token : Option String} (keyed : s.Keyed) :
    Within (revokeCurrentIfValid token now) (fun _ t => s.Evolves t ∧ t.events = s.events) s := by
  have unchanged : s.Evolves s ∧ s.events = s.events := ⟨.refl s, rfl⟩
  unfold revokeCurrentIfValid
  split
  · exact within_pure _ unchanged
  · exact within_pure _ unchanged
  · apply Within.bind
    apply within_read
    split
    · exact within_pure _ unchanged
    · rename_i session found
      apply within_ite
      · intro active
        apply Within.bind
        apply within_lift
        intro revoked ok
        exact within_write _ ⟨.revoke keyed found (.of_revoke active ok), rfl⟩
      · exact fun _ => within_pure _ unchanged

omit [Sha256] in
theorem within_requireActiveAccount {userId profileId : UUID} :
    Within (requireActiveAccount userId profileId) (fun account t => t = s ∧
      s.getByUserId userId = some account ∧ account.profileId = profileId) s := by
  unfold requireActiveAccount
  apply Within.bind
  apply within_read
  split
  · exact within_throw _
  · rename_i account found
    apply Within.bind
    apply within_raiseIf
    intro passes
    rw [not_or, not_not] at passes
    exact within_pure _ ⟨rfl, found, passes.1⟩

omit [Sha256] in
theorem Store.getByUserId_userId {userId : UUID} {account : UserAccount}
    (found : s.getByUserId userId = some account) : account.userId = userId :=
  of_decide_eq_true
    (List.find?_some (p := fun account : UserAccount => decide (account.userId = userId)) found)

omit [Sha256] in
theorem within_requireCredentials {password : String} {account : UserAccount} :
    Within (service.requireCredentials password account)
      (fun _ t => t = s.record (.verified account.userId)) s := by
  unfold requireCredentials
  apply Within.bind
  exact within_raiseIf fun _ => within_write _ rfl

theorem eq_hexdigest {token digest : String} (ok : tokenDigest token = .ok digest) :
    digest = Sha256.hexdigest token := by
  unfold tokenDigest at ok
  split at ok
  · cases ok
  · cases ok
    rfl

theorem within_issue {principal : SessionPrincipal} {expiresAt : DateTime}
    {account : Option UserAccount} :
    Within (issue principal now expiresAt account generated) (fun grant t => ∃ session,
      t = s.issue session ∧ Fits session generated.token principal now ∧
        grant.token = generated.token) s := by
  unfold issue
  apply Within.bind
  apply within_lift
  intro digest hashed
  have named := eq_hexdigest hashed
  apply Within.bind
  apply within_lift
  intro session made
  obtain ⟨same, principal, active⟩ := SessionRecord.make_ok made
  apply Within.bind
  apply within_write
  apply Within.bind
  apply within_write
  rw [← same]
  exact within_pure _ ⟨session, rfl, ⟨same.trans named, principal, active⟩, rfl⟩

/-- Before an account gets a session, all but the newest of its others are revoked. -/
theorem within_issueAuthenticated {owner : UserAccount} (keyed : s.Keyed) :
    Within (service.issueAuthenticated owner now generated) (fun grant t => ∃ between session,
      s.Evolves between ∧ between.events = s.events ∧ t = between.issue session ∧
        Fits session generated.token (.authenticated owner.profileId owner.userId) now ∧
        grant.token = generated.token ∧
        (between.activeSessions owner.userId owner.profileId now).length <
          service.configuration.maximumActiveAuthenticatedSessions) s := by
  unfold issueAuthenticated
  apply Within.bind
  apply within_requireActiveAccount.mono
  rintro account _ ⟨rfl, found, profile⟩
  have user := Store.getByUserId_userId found
  rw [profile, user]
  apply Within.bind
  apply within_read
  generalize listed : Store.listActiveForUser _ _ _ _ _ = active
  generalize limited : service.configuration.maximumActiveAuthenticatedSessions = limit
  have positive : 1 ≤ limit := limited ▸ service.configuration.sessions_positive
  have perm : active.Perm _ := listed ▸ Store.perm_listActiveForUser _ _ _ _
  have distinct : (active.map (·.tokenSha256)).Nodup :=
    (perm.map _).nodup_iff.mpr (Store.nodup_digests keyed)
  apply Within.bind
  apply (within_revokeEach keyed _ _).mono
  · rintro _ between ⟨evolves, -, events, gone⟩
    apply within_issue.mono
    rintro grant t ⟨session, rfl, fits, token⟩
    refine ⟨between, session, evolves, events, rfl, fits, token, ?_⟩
    have kept := Store.length_activeSessions_le (evolves.accounts keyed)
      owner.userId owner.profileId now ((active.take (limit - 1)).map (·.tokenSha256)) fun session current => by
        have listed := perm.mem_iff.mpr
          (evolves.mem_activeSessions keyed (DateTime.le_refl now) current)
        rw [← List.take_append_drop (limit - 1) active, List.mem_append] at listed
        rcases listed with newest | stale
        · exact List.mem_map_of_mem newest
        · exact absurd (List.mem_of_mem_filter current) (gone session stale)
    rw [List.length_map, List.length_take] at kept
    omega
  · intro session stale
    have current := perm.mem_iff.mp (List.mem_of_mem_drop stale)
    obtain ⟨stored, -, active⟩ := (Store.mem_activeSessions keyed).mp current
    exact ⟨stored, active⟩
  · exact distinct.sublist ((List.drop_sublist _ active).map _)

end Parts

/-- What a unit of work makes of a store: it issues at most one session, and one of an account only
where the account has room for it and right after its password was verified or it was registered. -/
inductive Changed [Sha256] (limit : Nat) (token : String) (clock : DateTime) (s : Store) :
    Store → Prop where
  | evolved {t : Store} (evolves : s.Evolves t) : Changed limit token clock s t
  | issued {between : Store} {session : SessionRecord} {principal : SessionPrincipal}
      {now : DateTime} (evolves : s.Evolves between) (order : now ≤ clock)
      (fits : Fits session token principal now)
      (room : ∀ userId, principal.userId = some userId →
        (between.activeSessions userId principal.profileId now).length < limit)
      (justified : ∀ userId, principal.userId = some userId →
        between.events.head? = some (.verified userId) ∨
          between.events.head? = some (.registered userId)) :
      Changed limit token clock s (between.issue session)

/-- What holds of the store of every reachable state. -/
structure Sound (limit : Nat) (clock : DateTime) (s : Store) : Prop where
  keyed : s.Keyed
  capped : ∀ userId profileId, (s.activeSessions userId profileId clock).length ≤ limit
  justified : ∀ key session userId, s.sessions.get? key = some session →
    session.principal.userId = some userId → ∃ later earlier,
      s.events = later ++ .issued key :: earlier ∧
        (earlier.head? = some (.verified userId) ∨ earlier.head? = some (.registered userId))

section Stores

variable {limit : Nat} {clock later : DateTime} {s t : Store} {token : String}

theorem sound_empty : Sound limit clock .empty where
  keyed := ⟨fun _ _ found => (nomatch found), fun _ _ found => (nomatch found)⟩
  capped _ _ := Nat.zero_le _
  justified _ _ _ found := nomatch found

theorem Sound.evolves (sound : Sound limit clock s) (order : clock ≤ later)
    (evolves : s.Evolves t) : Sound limit later t where
  keyed := evolves.accounts sound.keyed
  capped userId profileId := Nat.le_trans (evolves.length_activeSessions_le sound.keyed order)
    (sound.capped userId profileId)
  justified key session userId stored owner := by
    obtain ⟨was, storedBefore, step⟩ := evolves.sessions.get?_back stored
    rw [step.principal] at owner
    obtain ⟨after, before, same, justified⟩ := sound.justified key was userId storedBefore owner
    obtain ⟨more, events⟩ := evolves.events
    refine ⟨more ++ after, before, ?_, justified⟩
    rw [← events, same, List.append_assoc]

variable [Sha256]

theorem Sound.changed (sound : Sound limit clock s) (order : clock ≤ later)
    (changed : Changed limit token later s t) : Sound limit later t := by
  cases changed with
  | evolved evolves => exact sound.evolves order evolves
  | @issued between session principal now evolves past fits room justified =>
      have middle := sound.evolves order evolves
      have keyed := middle.keyed.issue session
      refine ⟨keyed, fun userId profileId => ?_, fun key stored userId found owner => ?_⟩
      · have spread (current : SessionRecord)
            (active : current ∈ (between.issue session).activeSessions userId profileId later) :=
          Store.mem_activeSessions_issue middle.keyed active
        by_cases mine : session.ownedBy userId profileId = true
        · -- the session issued, and those that there was room beside
          obtain ⟨owner, profile⟩ := of_decide_eq_true mine
          rw [fits.principal] at owner profile
          have spare := room userId owner
          rw [profile] at spare
          have bound := Store.length_activeSessions_le keyed userId profileId later
            (session.tokenSha256 ::
              (between.activeSessions userId profileId now).map (·.tokenSha256))
            fun current active => by
              rcases spread current active with rfl | before
              · exact List.mem_cons_self
              · exact List.mem_cons_of_mem _ (List.mem_map_of_mem
                  ((Store.Evolves.refl between).mem_activeSessions middle.keyed past before))
          rw [List.length_cons, List.length_map] at bound
          omega
        · have bound := Store.length_activeSessions_le keyed userId profileId later
            ((between.activeSessions userId profileId later).map (·.tokenSha256))
            fun current active => by
              rcases spread current active with rfl | before
              · exact absurd ((Store.mem_activeSessions keyed).mp active).2.1 mine
              · exact List.mem_map_of_mem before
          rw [List.length_map] at bound
          exact bound.trans (middle.capped userId profileId)
      · rw [Store.get?_issue] at found
        split at found
        · rename_i same
          cases found
          rw [fits.principal] at owner
          exact ⟨[], between.events, by rw [same]; rfl, justified userId owner⟩
        · obtain ⟨after, before, events, justified⟩ :=
            middle.justified key stored userId found owner
          exact ⟨.issued session.tokenSha256 :: after, before, congrArg _ events, justified⟩

/-- A session that is stored stays, revoked or as it is. -/
theorem Changed.get? (changed : Changed limit token later s t)
    (fresh : s.sessions.get? (Sha256.hexdigest token) = none) {key : String}
    {session : SessionRecord} (stored : s.sessions.get? key = some session) :
    ∃ now, t.sessions.get? key = some now ∧ Later session now := by
  cases changed with
  | evolved evolves => exact evolves.sessions.get? stored
  | @issued between issued principal now evolves past fits room justified =>
      obtain ⟨now, found, step⟩ := evolves.sessions.get? stored
      have other : key ≠ issued.tokenSha256 := by
        rw [fits.tokenSha256]
        rintro rfl
        rw [fresh] at stored
        cases stored
      exact ⟨now, (Dict.get?_set_of_ne _ _ other).trans found, step⟩

end Stores

end Cinegraph.Identity
