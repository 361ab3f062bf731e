import Cinegraph.Library.Dict
import Cinegraph.Library.Run
import Cinegraph.Library.TokenBucket
import Mathlib.Data.List.MinMax
import Mathlib.Algebra.Order.Floor.Defs
import Mathlib.Data.Rat.Floor

/-!
The token-bucket rate limiter of the API. A check reads the clock and enters the
locked section later, so the sections of several threads run in any order of
their readings.
-/

namespace Cinegraph.Api

open Cinegraph.Library

/-- The rate-limit part of the API configuration, with what its constructor checks. -/
structure ApiConfiguration where
  rateLimitCapacity : Int
  rateLimitRefillPerSecond : ℚ
  rateLimitBucketIdleTtlSeconds : Int
  maximumRateLimitBuckets : Int
  capacity_positive : 1 ≤ rateLimitCapacity
  ttl_positive : 1 ≤ rateLimitBucketIdleTtlSeconds
  buckets_positive : 1 ≤ maximumRateLimitBuckets
  refill_positive : 0 < rateLimitRefillPerSecond

structure RateLimitDecision where
  allowed : Bool
  remaining : Int
  retryAfterSeconds : Int
  deriving DecidableEq

structure TokenBucket where
  tokens : ℚ
  updatedAt : ℚ
  deriving DecidableEq

namespace InMemoryTokenBucketRateLimiter

variable (configuration : ApiConfiguration)

/-- The answer to a check that costs nothing. -/
def freeDecision : RateLimitDecision where
  allowed := true
  remaining := configuration.rateLimitCapacity
  retryAfterSeconds := 0

def makeCapacityForNewBucket (now : ℚ) (buckets : Dict String TokenBucket) :
    Dict String TokenBucket :=
  if (buckets.size : Int) < configuration.maximumRateLimitBuckets then buckets
  else
    let idleBefore := now - configuration.rateLimitBucketIdleTtlSeconds
    let idleKeys := (buckets.entries.filter fun entry => entry.2.updatedAt ≤ idleBefore).map Prod.fst
    let buckets := idleKeys.foldl Dict.erase buckets
    if configuration.maximumRateLimitBuckets ≤ buckets.size then
      match buckets.entries.argmin fun entry => entry.2.updatedAt with
      | some oldest => buckets.erase oldest.1
      | none => buckets
    else buckets

/-- The bucket a check draws from, created full where the key has none. -/
def bucketFor (key : String) (now : ℚ) (buckets : Dict String TokenBucket) :
    TokenBucket × Dict String TokenBucket :=
  match buckets.get? key with
  | some bucket => (bucket, buckets)
  | none =>
      let bucket : TokenBucket := { tokens := configuration.rateLimitCapacity, updatedAt := now }
      (bucket, (makeCapacityForNewBucket configuration now buckets).set key bucket)

/-- The locked section of `check`, entered with the clock reading `now`. -/
def lockedCheck (key : String) (cost : Int) (now : ℚ) (buckets : Dict String TokenBucket) :
    RateLimitDecision × Dict String TokenBucket :=
  let (bucket, buckets) := bucketFor configuration key now buckets
  let elapsed := max 0 (now - bucket.updatedAt)
  let tokens := min (configuration.rateLimitCapacity : ℚ)
    (bucket.tokens + elapsed * configuration.rateLimitRefillPerSecond)
  if (cost : ℚ) ≤ tokens then
    ({ allowed := true
       remaining := max 0 ⌊tokens - cost⌋
       retryAfterSeconds := 0 },
      buckets.set key { tokens := tokens - cost, updatedAt := now })
  else
    ({ allowed := false
       remaining := max 0 ⌊tokens⌋
       retryAfterSeconds := max 1 ⌈(cost - tokens) / configuration.rateLimitRefillPerSecond⌉ },
      buckets.set key { tokens := tokens, updatedAt := now })

/-! ### Threads -/

/-- A check that has read the clock and waits for the lock. -/
structure Pending where
  key : String
  cost : Int
  now : ℚ

/-- A check that returned, with the reading it decided on and the time at which it did. A
free check has read no clock. -/
structure Returned where
  key : String
  cost : Int
  now : Option ℚ
  decided : ℚ
  decision : RateLimitDecision

structure State where
  clock : ℚ
  buckets : Dict String TokenBucket
  pending : Nat → Option Pending
  returned : List Returned

inductive Action where
  | tick (clock : ℚ)
  | call (thread : Nat) (key : String) (cost : Int)
  | enter (thread : Nat)

def start (clock : ℚ) : State where
  clock := clock
  buckets := .empty
  pending _ := none
  returned := []

def step (s : State) : Action → Option State
  | .tick clock => if s.clock ≤ clock then some { s with clock := clock } else none
  | .call thread key cost =>
      match s.pending thread with
      | some _ => none
      | none =>
          if cost ≤ 0 then
            let decision := freeDecision configuration
            some { s with returned := ⟨key, cost, none, s.clock, decision⟩ :: s.returned }
          else
            some { s with pending := Function.update s.pending thread (some ⟨key, cost, s.clock⟩) }
  | .enter thread =>
      match s.pending thread with
      | none => none
      | some check =>
          let (decision, buckets) := lockedCheck configuration check.key check.cost check.now s.buckets
          some { s with
            buckets := buckets
            pending := Function.update s.pending thread none
            returned := ⟨check.key, check.cost, some check.now, s.clock, decision⟩ :: s.returned }

/-- The times and costs of the checks of a key that were allowed. -/
def admitted (time : ℚ → ℚ → ℚ) (key : String) (returned : List Returned) : List (ℚ × ℚ) :=
  returned.filterMap fun check =>
    if check.key = key ∧ check.decision.allowed then
      check.now.map fun now => (time now check.decided, (check.cost : ℚ))
    else none

/-- A check counts at the clock reading it decided on. -/
def atReading (now _decided : ℚ) : ℚ := now

/-- A check counts at the time of its locked section. -/
def atDecision (_now decided : ℚ) : ℚ := decided

/-- The step deletes the bucket of `key`. -/
def evicts (key : String) (s : State) : Action → Bool
  | .enter thread =>
      (s.pending thread).any fun check =>
        (s.buckets.get? key).isSome &&
          ((lockedCheck configuration check.key check.cost check.now s.buckets).2.get? key).isNone
  | _ => false

/-- The step enters the locked section with a reading of the clock that is older than the
time stamp of the bucket of `key`. -/
def stale (key : String) (s : State) : Action → Bool
  | .enter thread =>
      (s.pending thread).any fun check =>
        check.key == key &&
          (s.buckets.get? key).any fun bucket => decide (check.now < bucket.updatedAt)
  | _ => false

/-- The tokens of a bucket after the refill of a locked section. -/
def level (bucket : TokenBucket) (now : ℚ) : ℚ :=
  Library.TokenBucket.refilled configuration.rateLimitCapacity
    configuration.rateLimitRefillPerSecond bucket.tokens bucket.updatedAt now

/-- The step allows a check of `key` so long after its reading that the bucket, refilled for
the time since, would hold more than the capacity before the draw. -/
def late (key : String) (s : State) : Action → Bool
  | .enter thread =>
      (s.pending thread).any fun check =>
        let bucket := (bucketFor configuration check.key check.now s.buckets).1
        let held := level configuration bucket check.now +
          configuration.rateLimitRefillPerSecond * (s.clock - check.now)
        check.key == key && decide ((check.cost : ℚ) ≤ level configuration bucket check.now) &&
          decide ((configuration.rateLimitCapacity : ℚ) < held)
  | _ => false

variable {configuration} {key : String} {buckets : Dict String TokenBucket} {now : ℚ}

/-! ### The buckets of every reachable state -/

private theorem get?_of_foldl_erase {keys : List String} {bucket : TokenBucket}
    (found : (keys.foldl Dict.erase buckets).get? key = some bucket) :
    buckets.get? key = some bucket := by
  induction keys generalizing buckets with
  | nil => exact found
  | cons first rest ih =>
      have before := ih found
      rw [Dict.get?_erase] at before
      split at before
      · cases before
      · exact before

private theorem size_foldl_erase_le (keys : List String) (buckets : Dict String TokenBucket) :
    (keys.foldl Dict.erase buckets).size ≤ buckets.size := by
  induction keys generalizing buckets with
  | nil => exact le_rfl
  | cons first rest ih => exact (ih _).trans (buckets.size_erase_le first)

/-- Making room only deletes buckets. -/
theorem get?_of_makeCapacity {bucket : TokenBucket}
    (found : (makeCapacityForNewBucket configuration now buckets).get? key = some bucket) :
    buckets.get? key = some bucket := by
  unfold makeCapacityForNewBucket at found
  split at found
  · exact found
  · dsimp only at found
    split at found
    · split at found
      · rw [Dict.get?_erase] at found
        split at found
        · cases found
        · exact get?_of_foldl_erase found
      · exact get?_of_foldl_erase found
    · exact get?_of_foldl_erase found

/-- After making room one more bucket fits. -/
theorem size_makeCapacity_lt (now : ℚ) (few : (buckets.size : Int) ≤ configuration.maximumRateLimitBuckets) :
    ((makeCapacityForNewBucket configuration now buckets).size : Int) <
      configuration.maximumRateLimitBuckets := by
  have positive := configuration.buckets_positive
  unfold makeCapacityForNewBucket
  split
  · assumption
  · dsimp only
    generalize (buckets.entries.filter _).map Prod.fst = idle
    have fewer := size_foldl_erase_le idle buckets
    split
    · split
      · rename_i oldest found
        have member := List.argmin_mem (Option.mem_def.mpr found)
        have present := (Dict.mem_entries_iff _ oldest.1 oldest.2).mp member
        have smaller := Dict.size_erase_lt present
        omega
      · rename_i full none_left
        have empty := List.argmin_eq_none.mp none_left
        have size : (idle.foldl Dict.erase buckets).size = 0 := congrArg List.length empty
        omega
    · omega

/-- What holds of the buckets after every locked section. -/
structure Sound (configuration : ApiConfiguration) (buckets : Dict String TokenBucket) : Prop where
  bounded : ∀ key bucket, buckets.get? key = some bucket →
    0 ≤ bucket.tokens ∧ bucket.tokens ≤ configuration.rateLimitCapacity
  few : (buckets.size : Int) ≤ configuration.maximumRateLimitBuckets

private theorem capacity_nonneg : (0 : ℚ) ≤ configuration.rateLimitCapacity := by
  have positive := configuration.capacity_positive
  exact_mod_cast (by omega : (0 : Int) ≤ configuration.rateLimitCapacity)

/-- The bucket a check draws from is the one of its key, or a full one that is new. -/
theorem bucketFor_cases (configuration : ApiConfiguration) (key : String) (now : ℚ)
    (buckets : Dict String TokenBucket) :
    (∃ bucket, buckets.get? key = some bucket ∧
      bucketFor configuration key now buckets = (bucket, buckets)) ∨
    (buckets.get? key = none ∧
      bucketFor configuration key now buckets =
        (⟨configuration.rateLimitCapacity, now⟩,
          (makeCapacityForNewBucket configuration now buckets).set key
            ⟨configuration.rateLimitCapacity, now⟩)) := by
  unfold bucketFor
  cases found : buckets.get? key with
  | some bucket => exact .inl ⟨bucket, rfl, rfl⟩
  | none => exact .inr ⟨rfl, rfl⟩

/-- Everything a locked section does: it refills the bucket and, where the level covers the
cost, draws it down. -/
theorem lockedCheck_cases (key : String) (cost : Int) {bucket : TokenBucket}
    {kept : Dict String TokenBucket}
    (found : bucketFor configuration key now buckets = (bucket, kept)) :
    ((lockedCheck configuration key cost now buckets).1.allowed = true ∧
        (cost : ℚ) ≤ level configuration bucket now ∧
        (lockedCheck configuration key cost now buckets).2 =
          kept.set key ⟨level configuration bucket now - cost, now⟩) ∨
      ((lockedCheck configuration key cost now buckets).1.allowed = false ∧
        (lockedCheck configuration key cost now buckets).2 =
          kept.set key ⟨level configuration bucket now, now⟩) := by
  unfold lockedCheck level Library.TokenBucket.refilled
  rw [found]
  dsimp only
  split
  · exact .inl ⟨rfl, ‹_›, rfl⟩
  · exact .inr ⟨rfl, rfl⟩

theorem Sound.after_bucketFor {bucket : TokenBucket} {kept : Dict String TokenBucket}
    (sound : Sound configuration buckets)
    (found : bucketFor configuration key now buckets = (bucket, kept)) :
    Sound configuration kept ∧ kept.get? key = some bucket := by
  rcases bucketFor_cases configuration key now buckets with
    ⟨bucket', present, same⟩ | ⟨absent, same⟩
  · cases same.symm.trans found
    exact ⟨sound, present⟩
  · cases same.symm.trans found
    refine ⟨⟨fun other bucket' found' => ?_, ?_⟩, Dict.get?_set_self _ _ _⟩
    · rw [Dict.get?_set] at found'
      split at found'
      · cases found'
        exact ⟨capacity_nonneg, le_rfl⟩
      · exact sound.bounded other bucket' (get?_of_makeCapacity found')
    · have room := size_makeCapacity_lt now sound.few
      have absent' : (makeCapacityForNewBucket configuration now buckets).get? key = none := by
        rw [Option.eq_none_iff_forall_ne_some]
        intro bucket' present
        exact Option.some_ne_none _ ((get?_of_makeCapacity present).symm.trans absent)
      rw [Dict.size_set_of_get?_none _ absent']
      omega

/-- A locked section keeps the buckets sound. -/
theorem Sound.after_lockedCheck {cost : Int} (sound : Sound configuration buckets) (charged : 0 < cost) :
    Sound configuration (lockedCheck configuration key cost now buckets).2 := by
  obtain ⟨⟨bucket, kept⟩, found⟩ : ∃ pair, bucketFor configuration key now buckets = pair := ⟨_, rfl⟩
  obtain ⟨keptSound, present⟩ := sound.after_bucketFor found
  have bounds := keptSound.bounded key bucket present
  have level_nonneg : 0 ≤ level configuration bucket now :=
    Library.TokenBucket.refilled_nonneg capacity_nonneg configuration.refill_positive.le bounds.1
  have level_le : level configuration bucket now ≤ configuration.rateLimitCapacity :=
    Library.TokenBucket.refilled_le
  have written (tokens : ℚ) (lower : 0 ≤ tokens) (upper : tokens ≤ configuration.rateLimitCapacity) :
      Sound configuration (kept.set key ⟨tokens, now⟩) := by
    constructor
    · intro other bucket' found'
      rw [Dict.get?_set] at found'
      split at found'
      · cases found'
        exact ⟨lower, upper⟩
      · exact keptSound.bounded other bucket' found'
    · rw [Dict.size_set_of_get? _ present]
      exact keptSound.few
  have cost_nonneg : (0 : ℚ) ≤ cost := by exact_mod_cast charged.le
  rcases lockedCheck_cases key cost found with ⟨_, covered, after⟩ | ⟨_, after⟩
  · rw [after]
    exact written _ (by linarith) (by linarith)
  · rw [after]
    exact written _ level_nonneg level_le

/-- What holds in every reachable state. -/
structure Invariant (configuration : ApiConfiguration) (s : State) : Prop where
  sound : Sound configuration s.buckets
  stamped : ∀ key bucket, s.buckets.get? key = some bucket → bucket.updatedAt ≤ s.clock
  charged : ∀ thread check, s.pending thread = some check → 0 < check.cost
  read : ∀ thread check, s.pending thread = some check → check.now ≤ s.clock

theorem Invariant.at_start (configuration : ApiConfiguration) (clock : ℚ) :
    Invariant configuration (start clock) where
  sound := {
    bounded := by
      intro key bucket found
      cases found
    few := by
      have positive := configuration.buckets_positive
      change ((0 : Nat) : Int) ≤ _
      omega }
  stamped := by
    intro key bucket found
    cases found
  charged := by
    intro thread check waiting
    cases waiting
  read := by
    intro thread check waiting
    cases waiting

/-- A locked section stamps a bucket with its reading and no other bucket anew. -/
theorem stamped_after_lockedCheck {clock : ℚ} {cost : Int} {other : String} {bucket : TokenBucket}
    (stamped : ∀ key bucket, buckets.get? key = some bucket → bucket.updatedAt ≤ clock)
    (read : now ≤ clock)
    (found : (lockedCheck configuration key cost now buckets).2.get? other = some bucket) :
    bucket.updatedAt ≤ clock := by
  obtain ⟨⟨drawn, kept⟩, same⟩ : ∃ pair, bucketFor configuration key now buckets = pair := ⟨_, rfl⟩
  have unwritten (present : kept.get? other = some bucket) : bucket.updatedAt ≤ clock := by
    rcases bucketFor_cases configuration key now buckets with ⟨_, _, same'⟩ | ⟨_, same'⟩
    · cases same'.symm.trans same
      exact stamped other bucket present
    · cases same'.symm.trans same
      rw [Dict.get?_set] at present
      split at present
      · cases present
        exact read
      · exact stamped other bucket (get?_of_makeCapacity present)
  rcases lockedCheck_cases key cost same with ⟨_, _, written⟩ | ⟨_, written⟩
  all_goals
    rw [written, Dict.get?_set] at found
    split at found
    · cases found
      exact read
    · exact unwritten found

theorem Invariant.after_step {s t : State} {action : Action} (invariant : Invariant configuration s)
    (taken : step configuration s action = some t) : Invariant configuration t := by
  cases action with
  | tick clock =>
      simp only [step, Option.ite_none_right_eq_some, Option.some.injEq] at taken
      obtain ⟨forward, rfl⟩ := taken
      exact ⟨invariant.sound,
        fun key bucket found => (invariant.stamped key bucket found).trans forward,
        invariant.charged, fun thread check found => (invariant.read thread check found).trans forward⟩
  | call thread key cost =>
      cases waiting : s.pending thread with
      | some check => simp [step, waiting] at taken
      | none =>
          simp only [step, waiting] at taken
          split at taken
          · cases taken
            exact ⟨invariant.sound, invariant.stamped, invariant.charged, invariant.read⟩
          · cases taken
            have each : ∀ other check,
                Function.update s.pending thread (some ⟨key, cost, s.clock⟩) other = some check →
                  0 < check.cost ∧ check.now ≤ s.clock := by
              intro other check found
              by_cases same : other = thread
              · subst same
                simp only [Function.update_self, Option.some.injEq] at found
                subst found
                exact ⟨by dsimp only; omega, le_rfl⟩
              · rw [Function.update_of_ne same] at found
                exact ⟨invariant.charged other check found, invariant.read other check found⟩
            exact ⟨invariant.sound, invariant.stamped, fun other check found => (each other check found).1,
              fun other check found => (each other check found).2⟩
  | enter thread =>
      cases waiting : s.pending thread with
      | none => simp [step, waiting] at taken
      | some check =>
          simp only [step, waiting, Option.some.injEq] at taken
          subst taken
          have charged := invariant.charged thread check waiting
          have read := invariant.read thread check waiting
          have older : ∀ other check', Function.update s.pending thread none other = some check' →
              s.pending other = some check' := by
            intro other check' found
            by_cases same : other = thread
            · simp [same] at found
            · rwa [Function.update_of_ne same] at found
          exact ⟨invariant.sound.after_lockedCheck charged,
            fun other bucket found => stamped_after_lockedCheck invariant.stamped read found,
            fun other check' found => invariant.charged other check' (older other check' found),
            fun other check' found => invariant.read other check' (older other check' found)⟩

/-! ### The admitted cost of every interval -/

/-- A bucket that is left alone, or deleted by a locked section for another key. -/
theorem lockedCheck_other {other : String} {cost : Int} (different : key ≠ other)
    (kept : ∀ bucket, buckets.get? key = some bucket →
      (lockedCheck configuration other cost now buckets).2.get? key ≠ none) :
    (lockedCheck configuration other cost now buckets).2.get? key = buckets.get? key := by
  obtain ⟨⟨bucket, middle⟩, found⟩ : ∃ pair, bucketFor configuration other now buckets = pair :=
    ⟨_, rfl⟩
  have after : (lockedCheck configuration other cost now buckets).2.get? key = middle.get? key := by
    rcases lockedCheck_cases other cost found with ⟨_, _, written⟩ | ⟨_, written⟩ <;>
      rw [written, Dict.get?_set_of_ne _ _ different]
  rw [after]
  rcases bucketFor_cases configuration other now buckets with ⟨_, _, same⟩ | ⟨_, same⟩
  · cases same.symm.trans found
    rfl
  · cases same.symm.trans found
    rw [Dict.get?_set_of_ne _ _ different] at after ⊢
    cases remains : (makeCapacityForNewBucket configuration now buckets).get? key with
    | some bucket' => exact (get?_of_makeCapacity remains).symm
    | none =>
        cases before : buckets.get? key with
        | none => rfl
        | some bucket' => exact absurd (after.trans remains) (kept bucket' before)

/-- What the bucket of `key` holds has paid for the draws; without a bucket there are none. -/
def Covers (configuration : ApiConfiguration) (key : String) (buckets : Dict String TokenBucket)
    (held stamp : TokenBucket → ℚ) (draws : List (ℚ × ℚ)) : Prop :=
  match buckets.get? key with
  | none => draws = []
  | some bucket =>
      Library.TokenBucket.Pays (configuration.rateLimitCapacity : ℚ)
        configuration.rateLimitRefillPerSecond (held bucket) (stamp bucket) draws

/-- Counted at the readings, the tokens of the bucket pay. -/
def MeteredAtReading (configuration : ApiConfiguration) (key : String) (s : State) : Prop :=
  Covers configuration key s.buckets TokenBucket.tokens TokenBucket.updatedAt
    (admitted atReading key s.returned)

/-- Counted at the decisions, what the bucket would hold by now pays. -/
def MeteredAtDecision (configuration : ApiConfiguration) (key : String) (s : State) : Prop :=
  Covers configuration key s.buckets (fun bucket => level configuration bucket s.clock)
    (fun _ => s.clock) (admitted atDecision key s.returned)

theorem Covers.at_start {held stamp : TokenBucket → ℚ}
    (bounds : ∀ bucket, buckets.get? key = some bucket →
      0 ≤ held bucket ∧ held bucket ≤ configuration.rateLimitCapacity) :
    Covers configuration key buckets held stamp [] := by
  unfold Covers
  split
  · rfl
  · rename_i bucket found
    obtain ⟨lower, upper⟩ := bounds bucket found
    exact .fresh lower upper configuration.refill_positive.le

/-- What a step that does not delete the bucket of `key` can do to it: leave it alone, or run
the locked section of a check of `key`. -/
theorem step_cases {s t : State} {action : Action} (kept : evicts configuration key s action = false)
    (taken : step configuration s action = some t) :
    (t.buckets.get? key = s.buckets.get? key ∧ s.clock ≤ t.clock ∧
      ∀ time, admitted time key t.returned = admitted time key s.returned) ∨
    ∃ thread cost now, action = .enter thread ∧ s.pending thread = some ⟨key, cost, now⟩ ∧
      t.clock = s.clock ∧ t.buckets = (lockedCheck configuration key cost now s.buckets).2 ∧
      t.returned = ⟨key, cost, some now, s.clock,
        (lockedCheck configuration key cost now s.buckets).1⟩ :: s.returned := by
  cases action with
  | tick clock =>
      simp only [step, Option.ite_none_right_eq_some, Option.some.injEq] at taken
      obtain ⟨forward, rfl⟩ := taken
      exact .inl ⟨rfl, forward, fun _ => rfl⟩
  | call thread other cost =>
      cases waiting : s.pending thread with
      | some check => simp [step, waiting] at taken
      | none =>
          simp only [step, waiting] at taken
          split at taken
          · cases taken
            exact .inl ⟨rfl, le_rfl, fun time => by simp [admitted]⟩
          · cases taken
            exact .inl ⟨rfl, le_rfl, fun _ => rfl⟩
  | enter thread =>
      cases waiting : s.pending thread with
      | none => simp [step, waiting] at taken
      | some check =>
          obtain ⟨other, cost, now⟩ := check
          simp only [step, waiting, Option.some.injEq] at taken
          subst taken
          by_cases same : key = other
          · subst same
            exact .inr ⟨thread, cost, now, rfl, waiting, rfl, rfl, rfl⟩
          · have remains : ∀ bucket, s.buckets.get? key = some bucket →
                (lockedCheck configuration other cost now s.buckets).2.get? key ≠ none := by
              intro bucket present gone
              simp [evicts, waiting, present, gone] at kept
            have different : ¬ other = key := fun h => same h.symm
            exact .inl ⟨lockedCheck_other same remains, le_rfl,
              fun time => by simp [admitted, different]⟩

/-- The draw of a locked section, counted by either time. -/
theorem admitted_cons (time : ℚ → ℚ → ℚ) (cost : Int) (decided : ℚ) (decision : RateLimitDecision)
    (returned : List Returned) :
    admitted time key (⟨key, cost, some now, decided, decision⟩ :: returned) =
      if decision.allowed then (time now decided, (cost : ℚ)) :: admitted time key returned
      else admitted time key returned := by
  cases allowed : decision.allowed <;> simp [admitted, allowed]

theorem MeteredAtReading.after_step {s t : State} {action : Action}
    (metered : MeteredAtReading configuration key s) (invariant : Invariant configuration s)
    (kept : evicts configuration key s action = false) (fresh : stale key s action = false)
    (taken : step configuration s action = some t) : MeteredAtReading configuration key t := by
  unfold MeteredAtReading Covers at metered ⊢
  rcases step_cases kept taken with
    ⟨same, _, log⟩ | ⟨thread, cost, now, rfl, waiting, _, written, returned⟩
  · rw [same, log]
    exact metered
  · obtain ⟨⟨bucket, middle⟩, found⟩ : ∃ pair, bucketFor configuration key now s.buckets = pair :=
      ⟨_, rfl⟩
    have rate_nonneg := configuration.refill_positive.le
    have cost_nonneg : (0 : ℚ) ≤ cost := by
      exact_mod_cast (invariant.charged thread _ waiting).le
    have pays : Library.TokenBucket.Pays (configuration.rateLimitCapacity : ℚ)
        configuration.rateLimitRefillPerSecond (level configuration bucket now) now
        (admitted atReading key s.returned) := by
      rcases bucketFor_cases configuration key now s.buckets with
        ⟨bucket', present, same⟩ | ⟨absent, same⟩
      · cases same.symm.trans found
        rw [present] at metered
        have forward : bucket.updatedAt ≤ now := by
          simpa [stale, waiting, present] using fresh
        exact metered.refill rate_nonneg forward
      · cases same.symm.trans found
        rw [absent] at metered
        dsimp only at metered
        rw [metered]
        exact .refill (.fresh capacity_nonneg le_rfl rate_nonneg) rate_nonneg le_rfl
    rw [written, returned, admitted_cons]
    rcases lockedCheck_cases key cost found with ⟨allowed, covered, after⟩ | ⟨denied, after⟩
    · rw [after, Dict.get?_set_self, if_pos allowed]
      exact pays.draw rate_nonneg cost_nonneg covered
    · rw [after, Dict.get?_set_self, denied]
      exact pays

/-- What a bucket holds by `clock` grows with the clock. -/
theorem level_le_refilled {bucket : TokenBucket} {clock later : ℚ} (stamped : bucket.updatedAt ≤ clock)
    (forward : clock ≤ later) :
    level configuration bucket later ≤
      Library.TokenBucket.refilled (configuration.rateLimitCapacity : ℚ)
        configuration.rateLimitRefillPerSecond (level configuration bucket clock) clock later :=
  Library.TokenBucket.refilled_le_refilled configuration.refill_positive.le stamped forward

theorem level_nonneg (bucket : TokenBucket) (tokens : 0 ≤ bucket.tokens) (now : ℚ) :
    0 ≤ level configuration bucket now :=
  Library.TokenBucket.refilled_nonneg capacity_nonneg configuration.refill_positive.le tokens

theorem level_le (configuration : ApiConfiguration) (bucket : TokenBucket) (now : ℚ) :
    level configuration bucket now ≤ configuration.rateLimitCapacity :=
  Library.TokenBucket.refilled_le

/-- What a bucket written by a locked section holds by `clock`. -/
theorem level_written {tokens clock : ℚ} (read : now ≤ clock) {cost : ℚ} :
    level configuration ⟨tokens - cost, now⟩ clock ≤
      tokens + configuration.rateLimitRefillPerSecond * (clock - now) - cost := by
  have gained : level configuration ⟨tokens - cost, now⟩ clock ≤
      tokens - cost + configuration.rateLimitRefillPerSecond * (clock - now) :=
    Library.TokenBucket.refilled_le_elapsed read
  linarith

/-- A bucket refilled at the reading and again for the time since holds no more than the bucket
before it, refilled at once. -/
theorem level_level {bucket : TokenBucket} {clock : ℚ} (forward : bucket.updatedAt ≤ now)
    (read : now ≤ clock) :
    level configuration ⟨level configuration bucket now, now⟩ clock ≤
      level configuration bucket clock := by
  have rate_nonneg := configuration.refill_positive.le
  have whole : level configuration ⟨level configuration bucket now, now⟩ clock ≤
      level configuration bucket now + configuration.rateLimitRefillPerSecond * (clock - now) :=
    Library.TokenBucket.refilled_le_elapsed read
  have part : level configuration bucket now ≤
      bucket.tokens + configuration.rateLimitRefillPerSecond * (now - bucket.updatedAt) :=
    Library.TokenBucket.refilled_le_elapsed forward
  have elapsed : max 0 (clock - bucket.updatedAt) = clock - bucket.updatedAt :=
    max_eq_right (sub_nonneg.mpr (forward.trans read))
  apply le_min (level_le configuration _ _)
  rw [elapsed]
  linarith

theorem MeteredAtDecision.after_step {s t : State} {action : Action}
    (metered : MeteredAtDecision configuration key s) (invariant : Invariant configuration s)
    (kept : evicts configuration key s action = false) (fresh : stale key s action = false)
    (timely : late configuration key s action = false)
    (taken : step configuration s action = some t) : MeteredAtDecision configuration key t := by
  unfold MeteredAtDecision Covers at metered ⊢
  rcases step_cases kept taken with
    ⟨same, forward, log⟩ | ⟨thread, cost, now, rfl, waiting, clock, written, returned⟩
  · rw [same, log]
    split
    · rename_i absent
      simpa only [absent] using metered
    · rename_i bucket present
      simp only [present] at metered
      have stamped := invariant.stamped key bucket present
      have tokens := (invariant.sound.bounded key bucket present).1
      have refilled := metered.refill configuration.refill_positive.le forward
      have held : 0 ≤ level configuration bucket t.clock := level_nonneg bucket tokens t.clock
      exact refilled.lower held (level_le_refilled stamped forward)
  · obtain ⟨⟨bucket, middle⟩, found⟩ : ∃ pair, bucketFor configuration key now s.buckets = pair :=
      ⟨_, rfl⟩
    have rate_nonneg := configuration.refill_positive.le
    have cost_nonneg : (0 : ℚ) ≤ cost := by
      exact_mod_cast (invariant.charged thread _ waiting).le
    have read : now ≤ s.clock := invariant.read thread _ waiting
    -- A new bucket is full at its reading, and was at any time before.
    obtain ⟨forward, pays⟩ : bucket.updatedAt ≤ now ∧
        Library.TokenBucket.Pays (configuration.rateLimitCapacity : ℚ)
          configuration.rateLimitRefillPerSecond (level configuration bucket s.clock) s.clock
          (admitted atDecision key s.returned) := by
      rcases bucketFor_cases configuration key now s.buckets with
        ⟨bucket', present, same⟩ | ⟨absent, same⟩
      · cases same.symm.trans found
        simp only [present] at metered
        exact ⟨by simpa [stale, waiting, present] using fresh, metered⟩
      · cases same.symm.trans found
        simp only [absent] at metered
        rw [metered]
        have held : 0 ≤ level configuration ⟨configuration.rateLimitCapacity, now⟩ s.clock :=
          level_nonneg ⟨configuration.rateLimitCapacity, now⟩ capacity_nonneg s.clock
        have full := level_le configuration ⟨configuration.rateLimitCapacity, now⟩ s.clock
        exact ⟨le_rfl, .fresh held full rate_nonneg⟩
    rw [written, returned, admitted_cons, clock]
    rcases lockedCheck_cases key cost found with ⟨allowed, covered, after'⟩ | ⟨denied, after'⟩
    · have room : level configuration bucket now +
          configuration.rateLimitRefillPerSecond * (s.clock - now) ≤
            configuration.rateLimitCapacity := by
        simpa [late, waiting, found, covered] using timely
      have drawn : level configuration ⟨level configuration bucket now - cost, now⟩ s.clock ≤ _ :=
        level_written read
      have elapsed : 0 ≤ configuration.rateLimitRefillPerSecond * (s.clock - now) :=
        mul_nonneg rate_nonneg (sub_nonneg.mpr read)
      have part : level configuration bucket now ≤
          bucket.tokens + configuration.rateLimitRefillPerSecond * (now - bucket.updatedAt) :=
        Library.TokenBucket.refilled_le_elapsed forward
      have held : level configuration bucket now +
          configuration.rateLimitRefillPerSecond * (s.clock - now) ≤
            level configuration bucket s.clock := by
        apply le_min room
        rw [max_eq_right (sub_nonneg.mpr (forward.trans read))]
        linarith
      rw [after', Dict.get?_set_self, if_pos allowed]
      have left : 0 ≤ level configuration ⟨level configuration bucket now - cost, now⟩ s.clock :=
        level_nonneg ⟨level configuration bucket now - cost, now⟩ (sub_nonneg.mpr covered) s.clock
      have paid := pays.draw rate_nonneg cost_nonneg (by linarith)
      exact paid.lower left (by linarith)
    · rw [after', Dict.get?_set_self, denied]
      have tokens : 0 ≤ level configuration bucket now := by
        obtain ⟨sound, present⟩ := invariant.sound.after_bucketFor found
        exact level_nonneg bucket (sound.bounded key bucket present).1 now
      have held : 0 ≤ level configuration ⟨level configuration bucket now, now⟩ s.clock :=
        level_nonneg ⟨level configuration bucket now, now⟩ tokens s.clock
      exact pays.lower held (level_level forward read)

/-! ### Whole runs -/

/-- The step neither deletes the bucket of `key` nor brings it an old reading. -/
abbrev InOrder (configuration : ApiConfiguration) (key : String) (s : State) (action : Action) :
    Prop :=
  evicts configuration key s action = false ∧ stale key s action = false

/-- The step is in order and allows no check of `key` too long after its reading. -/
abbrev Prompt (configuration : ApiConfiguration) (key : String) (s : State) (action : Action) :
    Prop :=
  InOrder configuration key s action ∧ late configuration key s action = false

theorem invariant_of_run {C : State → Action → Prop} {s t : State}
    (run : Run (step configuration) C s t) (invariant : Invariant configuration s) :
    Invariant configuration t :=
  run.invariant invariant fun _ _ _ before _ taken => before.after_step taken

theorem metered_at_reading {s t : State}
    (run : Run (step configuration) (InOrder configuration key) s t)
    (invariant : Invariant configuration s) (metered : MeteredAtReading configuration key s) :
    MeteredAtReading configuration key t := by
  induction run with
  | start => exact metered
  | next run meets taken ih =>
      exact ih.after_step (invariant_of_run run invariant) meets.1 meets.2 taken

theorem metered_at_decision {s t : State}
    (run : Run (step configuration) (Prompt configuration key) s t)
    (invariant : Invariant configuration s) (metered : MeteredAtDecision configuration key s) :
    MeteredAtDecision configuration key t := by
  induction run with
  | start => exact metered
  | next run meets taken ih =>
      exact ih.after_step (invariant_of_run run invariant) meets.1.1 meets.1.2 meets.2 taken

/-- Draws that are covered fit every interval. -/
theorem Covers.bound {held stamp : TokenBucket → ℚ} {draws : List (ℚ × ℚ)}
    (covers : Covers configuration key buckets held stamp draws) {first last : ℚ}
    (ordered : first ≤ last) :
    Library.TokenBucket.spent first last draws ≤
      configuration.rateLimitCapacity +
        configuration.rateLimitRefillPerSecond * (last - first) := by
  unfold Covers at covers
  split at covers
  · have gained : 0 ≤ configuration.rateLimitRefillPerSecond * (last - first) :=
      mul_nonneg configuration.refill_positive.le (sub_nonneg.mpr ordered)
    have capacity : (0 : ℚ) ≤ configuration.rateLimitCapacity := capacity_nonneg
    rw [covers, Library.TokenBucket.spent_nil]
    linarith
  · exact covers.within first last ordered

/-- In every reachable state the tokens of a bucket lie between zero and the capacity and the
buckets are at most as many as configured. From such a state on, and until the bucket of a key
is deleted, the checks of the key that are allowed within an interval cost at most the capacity
and the refill of the interval: counted at their readings as long as no check brings the bucket
a reading older than its stamp, and counted at their decisions as long as none is allowed late
either. -/
theorem admission_bounded {clock : ℚ} {s : State}
    (reached : Run (step configuration) (fun _ _ => True) (start clock) s) :
    (∀ key bucket, s.buckets.get? key = some bucket →
      0 ≤ bucket.tokens ∧ bucket.tokens ≤ configuration.rateLimitCapacity) ∧
    (s.buckets.size : Int) ≤ configuration.maximumRateLimitBuckets ∧
    ∀ key t,
      (Run (step configuration) (InOrder configuration key) { s with returned := [] } t →
        ∀ first last, first ≤ last →
          Library.TokenBucket.spent first last (admitted atReading key t.returned) ≤
            configuration.rateLimitCapacity +
              configuration.rateLimitRefillPerSecond * (last - first)) ∧
      (Run (step configuration) (Prompt configuration key) { s with returned := [] } t →
        ∀ first last, first ≤ last →
          Library.TokenBucket.spent first last (admitted atDecision key t.returned) ≤
            configuration.rateLimitCapacity +
              configuration.rateLimitRefillPerSecond * (last - first)) := by
  have invariant := invariant_of_run reached (.at_start configuration clock)
  have again : Invariant configuration { s with returned := [] } :=
    ⟨invariant.sound, invariant.stamped, invariant.charged, invariant.read⟩
  refine ⟨invariant.sound.bounded, invariant.sound.few, fun key t => ⟨?_, ?_⟩⟩
  · intro run first last ordered
    have metered : MeteredAtReading configuration key { s with returned := [] } :=
      Covers.at_start (invariant.sound.bounded key)
    exact (metered_at_reading run again metered).bound ordered
  · intro run first last ordered
    have metered : MeteredAtDecision configuration key { s with returned := [] } := by
      apply Covers.at_start
      intro bucket present
      have tokens := (invariant.sound.bounded key bucket present).1
      exact ⟨level_nonneg bucket tokens _, level_le configuration bucket _⟩
    exact (metered_at_decision run again metered).bound ordered

end InMemoryTokenBucketRateLimiter

namespace RateLimiterSamples

open InMemoryTokenBucketRateLimiter

def configuration : ApiConfiguration where
  rateLimitCapacity := 10
  rateLimitRefillPerSecond := 1
  rateLimitBucketIdleTtlSeconds := 60
  maximumRateLimitBuckets := 4
  capacity_positive := by decide
  ttl_positive := by decide
  buckets_positive := by decide
  refill_positive := by decide

/-- A check whose reading and locked section are ten seconds apart lets the bucket be refilled
for these seconds a second time. -/
theorem refilled_twice :
    ∃ t, Run (step configuration) (fun s a => evicts configuration "a" s a = false) (start 0) t ∧
      Library.TokenBucket.spent 10 10 (admitted atReading "a" t.returned) = 20 ∧
      Library.TokenBucket.spent 10 10 (admitted atDecision "a" t.returned) = 20 ∧
      (configuration.rateLimitCapacity : ℚ) +
        configuration.rateLimitRefillPerSecond * (10 - 10) < 20 := by
  obtain ⟨t, run, holds⟩ := Run.exists_of_checked (step configuration)
    (fun s a => evicts configuration "a" s a = false) (start 0)
    [.call 0 "a" 10, .enter 0, .call 1 "a" 10, .tick 10, .call 2 "a" 10, .enter 2, .enter 1,
      .call 3 "a" 10, .enter 3]
    (fun t =>
      Library.TokenBucket.spent 10 10 (admitted atReading "a" t.returned) = 20 &&
        Library.TokenBucket.spent 10 10 (admitted atDecision "a" t.returned) = 20)
    (by decide +kernel)
  simp only [Bool.and_eq_true, decide_eq_true_eq] at holds
  exact ⟨t, run, holds.1, holds.2, by norm_num [configuration]⟩

/-- Two checks that both draw, the second one after a refill. -/
theorem admission_bounded_sample :
    ∃ t, Run (step configuration) (Prompt configuration "a") (start 0) t ∧
      Library.TokenBucket.spent 0 2 (admitted atDecision "a" t.returned) = 12 ∧
      Library.TokenBucket.spent 0 2 (admitted atReading "a" t.returned) ≤ 10 + 1 * (2 - 0) ∧
      Library.TokenBucket.spent 0 2 (admitted atDecision "a" t.returned) ≤ 10 + 1 * (2 - 0) := by
  obtain ⟨t, run, spent⟩ := Run.exists_of_checked (step configuration) (Prompt configuration "a")
    (start 0) [.call 0 "a" 10, .call 1 "a" 2, .enter 0, .tick 2, .call 2 "a" 2, .enter 2]
    (fun t => Library.TokenBucket.spent 0 2 (admitted atDecision "a" t.returned) = 12)
    (by decide +kernel)
  obtain ⟨_, _, each⟩ := admission_bounded
    (Run.start : Run (step configuration) (fun _ _ => True) (start 0) (start 0))
  obtain ⟨byReading, byDecision⟩ := each "a" t
  have readings := byReading (run.mono fun _ _ prompt => prompt.1) 0 2 (by norm_num)
  have decisions := byDecision run 0 2 (by norm_num)
  simp only [RateLimiterSamples.configuration, Int.cast_ofNat] at readings decisions
  exact ⟨t, run, of_decide_eq_true spent, readings, decisions⟩

end RateLimiterSamples

end Cinegraph.Api
