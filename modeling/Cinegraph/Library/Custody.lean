import Mathlib.Data.Finset.Basic
import Mathlib.Data.Set.Basic

/-!
Exclusive custody of keys by the parties of a concurrent system. A party takes a
key that nobody has, may start to run it, and lets go of it; a party that was
interrupted reports its key, and reported keys may later be reset by anyone. The
invariant is that a key is never reset while a party is running it.
-/

namespace Cinegraph.Library

/-- What a party has to do with a key. -/
inductive Stage (κ : Type) where
  | idle
  | holding (k : κ)
  | live (k : κ)
  | leaving (k : κ)

namespace Stage

variable {κ : Type}

/-- The key a party has in custody. -/
def key : Stage κ → Option κ
  | .idle => none
  | .holding k | .live k | .leaving k => some k

/-- The key a party may still report. -/
def pending : Stage κ → Option κ
  | .holding k | .live k => some k
  | _ => none

theorem key_of_pending {x : Stage κ} {k : κ} (h : x.pending = some k) : x.key = some k := by
  cases x with
  | idle => cases h
  | holding l => exact h
  | live l => exact h
  | leaving l => cases h

end Stage

@[ext] structure Custody (π κ : Type) where
  stage : π → Stage κ
  taken : Finset κ
  reported : Finset κ
  running : Set κ

namespace Custody

variable {π κ : Type} [DecidableEq π] [DecidableEq κ]

def put (s : Custody π κ) (p : π) (x : Stage κ) : Custody π κ :=
  { s with stage := Function.update s.stage p x }

omit [DecidableEq κ] in
@[simp] theorem stage_put_self (s : Custody π κ) (p : π) (x : Stage κ) :
    (s.put p x).stage p = x := Function.update_self _ _ _

omit [DecidableEq κ] in
theorem stage_put_of_ne (s : Custody π κ) {p q : π} (x : Stage κ) (different : q ≠ p) :
    (s.put p x).stage q = s.stage q := Function.update_of_ne different _ _

omit [DecidableEq κ] in
/-- A party that stays where it is. -/
theorem put_same (s : Custody π κ) {p : π} {x : Stage κ} (same : s.stage p = x) :
    s.put p x = s := by
  rw [put, ← same, Function.update_eq_self]

omit [DecidableEq κ] in
theorem put_put (s : Custody π κ) (p : π) (x y : Stage κ) : (s.put p x).put p y = s.put p y := by
  simp only [put, Function.update_idem]

omit [DecidableEq κ] in
theorem put_comm (s : Custody π κ) {p q : π} (different : p ≠ q) (x y : Stage κ) :
    (s.put p x).put q y = (s.put q y).put p x := by
  simp only [put]
  rw [Function.update_comm different]

/-- The elementary steps. What they may do to the set of running keys is stated
by the keys they leave alone. -/
inductive Step : Custody π κ → Custody π κ → Prop where
  | acquire {s : Custody π κ} {p : π} {k : κ} (idle : s.stage p = .idle) (free : k ∉ s.taken)
      (settled : k ∉ s.reported) :
      Step s { s.put p (.holding k) with taken := insert k s.taken }
  | pass {s : Custody π κ} {p q : π} {k : κ} (holding : s.stage p = .holding k)
      (idle : s.stage q = .idle) : Step s ((s.put p .idle).put q (.holding k))
  | enter {s : Custody π κ} {p : π} {k : κ} (holding : s.stage p = .holding k)
      (running : k ∈ s.running) : Step s (s.put p (.live k))
  | suspend {s : Custody π κ} {p : π} {k : κ} (live : s.stage p = .live k) :
      Step s (s.put p (.holding k))
  | leave {s : Custody π κ} {p : π} {k : κ} (pending : (s.stage p).pending = some k) :
      Step s (s.put p (.leaving k))
  | report {s : Custody π κ} {p : π} {k : κ} (holding : s.stage p = .holding k) :
      Step s { s.put p (.leaving k) with reported := insert k s.reported }
  | release {s : Custody π κ} {p : π} {k : κ} (key : (s.stage p).key = some k) :
      Step s { s.put p .idle with taken := s.taken.erase k }
  | gain {s : Custody π κ} {running : Set κ} (grows : s.running ⊆ running) :
      Step s { s with running := running }
  | finish {s : Custody π κ} {p : π} {k : κ} {running : Set κ} (leaving : s.stage p = .leaving k)
      (others : ∀ l, l ≠ k → (l ∈ running ↔ l ∈ s.running)) : Step s { s with running := running }
  | reset {s : Custody π κ} {k : κ} {running : Set κ} (reported : k ∈ s.reported)
      (others : ∀ l, l ≠ k → (l ∈ running ↔ l ∈ s.running)) :
      Step s { s with running := running, reported := s.reported.erase k }

structure Invariant (s : Custody π κ) : Prop where
  taken : ∀ p k, (s.stage p).key = some k → k ∈ s.taken
  single : ∀ p q k, (s.stage p).key = some k → (s.stage q).key = some k → p = q
  settled : ∀ p k, (s.stage p).pending = some k → k ∉ s.reported
  running : ∀ p k, s.stage p = .live k → k ∈ s.running

omit [DecidableEq π] [DecidableEq κ] in
/-- A key that was reported is run by nobody. -/
theorem Invariant.not_live {s : Custody π κ} (h : s.Invariant) {k : κ} (reported : k ∈ s.reported)
    (p : π) : s.stage p ≠ .live k := by
  intro live
  exact h.settled p k (by rw [live]; rfl) reported

omit [DecidableEq κ] in
/-- A party that changes its stage and keeps its key, if it does not start to run it. -/
theorem Invariant.keep {s : Custody π κ} (h : s.Invariant) {p : π} {k : κ} {x : Stage κ}
    (key : (s.stage p).key = some k) (same : x.key = some k)
    (pending : ∀ l, x.pending = some l → l ∉ s.reported)
    (running : ∀ l, x = .live l → l ∈ s.running) : (s.put p x).Invariant := by
  have keys (q : π) : ((s.put p x).stage q).key = (s.stage q).key := by
    by_cases hq : q = p
    · rw [hq, key, stage_put_self, same]
    · rw [stage_put_of_ne s _ hq]
  refine ⟨fun q l hl => h.taken q l (keys q ▸ hl),
    fun q r l hq hr => h.single q r l (keys q ▸ hq) (keys r ▸ hr), ?_, ?_⟩
  · intro q l hl
    by_cases hq : q = p
    · rw [hq, stage_put_self] at hl
      exact pending l hl
    · rw [stage_put_of_ne s _ hq] at hl
      exact h.settled q l hl
  · intro q l hl
    by_cases hq : q = p
    · rw [hq, stage_put_self] at hl
      exact running l hl
    · rw [stage_put_of_ne s _ hq] at hl
      exact h.running q l hl

theorem Invariant.acquire {s : Custody π κ} (h : s.Invariant) {p : π} {k : κ}
    (free : k ∉ s.taken) (settled : k ∉ s.reported) :
    Invariant { s.put p (.holding k) with taken := insert k s.taken } := by
  have unheld (q : π) : (s.stage q).key ≠ some k := fun hq => free (h.taken q k hq)
  have stages (q : π) : q = p ∧ (s.put p (.holding k)).stage q = .holding k ∨
      q ≠ p ∧ (s.put p (.holding k)).stage q = s.stage q := by
    by_cases hq : q = p
    · exact Or.inl ⟨hq, by rw [hq, stage_put_self]⟩
    · exact Or.inr ⟨hq, by rw [stage_put_of_ne s _ hq]⟩
  constructor
  · intro q l hl
    rcases stages q with ⟨-, hq⟩ | ⟨-, hq⟩ <;> simp only [hq] at hl
    · cases hl
      exact Finset.mem_insert_self _ _
    · exact Finset.mem_insert_of_mem (h.taken q l hl)
  · intro q r l hl hl'
    rcases stages q with ⟨rfl, hq⟩ | ⟨-, hq⟩ <;> rcases stages r with ⟨rfl, hr⟩ | ⟨-, hr⟩ <;>
      simp only [hq, hr] at hl hl'
    · rfl
    · cases hl
      exact absurd hl' (unheld r)
    · cases hl'
      exact absurd hl (unheld q)
    · exact h.single q r l hl hl'
  · intro q l hl
    rcases stages q with ⟨-, hq⟩ | ⟨-, hq⟩ <;> simp only [hq] at hl
    · cases hl
      exact settled
    · exact h.settled q l hl
  · intro q l hl
    rcases stages q with ⟨-, hq⟩ | ⟨-, hq⟩ <;> simp only [hq] at hl
    · cases hl
    · exact h.running q l hl

theorem Invariant.release {s : Custody π κ} (h : s.Invariant) {p : π} {k : κ}
    (key : (s.stage p).key = some k) :
    Invariant { s.put p .idle with taken := s.taken.erase k } := by
  have stages (q : π) : (s.put p .idle).stage q = .idle ∨
      q ≠ p ∧ (s.put p .idle).stage q = s.stage q := by
    by_cases hq : q = p
    · exact Or.inl (by rw [hq, stage_put_self])
    · exact Or.inr ⟨hq, by rw [stage_put_of_ne s _ hq]⟩
  constructor
  · intro q l hl
    rcases stages q with hq | ⟨different, hq⟩ <;> simp only [hq] at hl
    · cases hl
    · apply Finset.mem_erase.mpr
      refine ⟨?_, h.taken q l hl⟩
      rintro rfl
      exact different (h.single q p l hl key)
  · intro q r l hl hl'
    rcases stages q with hq | ⟨-, hq⟩ <;> rcases stages r with hr | ⟨-, hr⟩ <;>
      simp only [hq, hr] at hl hl'
    · cases hl
    · cases hl
    · cases hl'
    · exact h.single q r l hl hl'
  · intro q l hl
    rcases stages q with hq | ⟨-, hq⟩ <;> simp only [hq] at hl
    · cases hl
    · exact h.settled q l hl
  · intro q l hl
    rcases stages q with hq | ⟨-, hq⟩ <;> simp only [hq] at hl
    · cases hl
    · exact h.running q l hl

/-- Passing a key on is releasing it and acquiring it for the other party. -/
theorem Invariant.pass {s : Custody π κ} (h : s.Invariant) {p q : π} {k : κ}
    (holding : s.stage p = .holding k) : ((s.put p .idle).put q (.holding k)).Invariant := by
  have key : (s.stage p).key = some k := by rw [holding]; rfl
  have pending : (s.stage p).pending = some k := by rw [holding]; rfl
  have released := (h.release key).acquire (p := q) (k := k) (Finset.notMem_erase k s.taken)
    (h.settled p k pending)
  have restored : insert k (s.taken.erase k) = s.taken := Finset.insert_erase (h.taken p k key)
  simpa only [put, restored] using released

theorem Step.preserves {s t : Custody π κ} (step : Step s t) (h : s.Invariant) : t.Invariant := by
  cases step with
  | acquire idle free settled => exact h.acquire free settled
  | pass holding idle => exact h.pass holding
  | @enter p k holding running =>
      have pending : (s.stage p).pending = some k := by rw [holding]; rfl
      refine h.keep (Stage.key_of_pending pending) rfl (fun l hl => ?_) (fun l hl => ?_)
      · cases hl
        exact h.settled p k pending
      · cases hl
        exact running
  | @suspend p k live =>
      have pending : (s.stage p).pending = some k := by rw [live]; rfl
      refine h.keep (Stage.key_of_pending pending) rfl (fun l hl => ?_) (fun l hl => ?_)
      · cases hl
        exact h.settled p k pending
      · cases hl
  | leave pending =>
      refine h.keep (Stage.key_of_pending pending) rfl (fun l hl => ?_) (fun l hl => ?_) <;>
        cases hl
  | @report p k holding =>
      have key : (s.stage p).key = some k := by rw [holding]; rfl
      have left : (s.put p (.leaving k)).Invariant := by
        refine h.keep key rfl (fun l hl => ?_) (fun l hl => ?_) <;> cases hl
      refine ⟨left.taken, left.single, fun q l hl => ?_, left.running⟩
      have old := left.settled q l hl
      intro member
      rcases Finset.mem_insert.mp member with rfl | reported
      · have mine : ((s.put p (.leaving l)).stage p).key = some l := by
          rw [stage_put_self]
          rfl
        have same := left.single q p l (Stage.key_of_pending hl) mine
        subst same
        simp only [stage_put_self] at hl
        cases hl
      · exact old reported
  | release key => exact h.release key
  | gain grows =>
      exact ⟨h.taken, h.single, h.settled, fun p k live => grows (h.running p k live)⟩
  | @finish p k running leaving others =>
      refine ⟨h.taken, h.single, h.settled, fun q l live => ?_⟩
      refine (others l ?_).mpr (h.running q l live)
      rintro rfl
      have same := h.single q p l (by rw [live]; rfl) (by rw [leaving]; rfl)
      rw [same, leaving] at live
      cases live
  | @reset k running reported others =>
      refine ⟨h.taken, h.single, fun p l pending member => ?_, fun p l live => ?_⟩
      · exact h.settled p l pending (Finset.mem_of_mem_erase member)
      · refine (others l ?_).mpr (h.running p l live)
        rintro rfl
        exact h.not_live reported p live

/-- Any number of elementary steps. -/
abbrev Steps : Custody π κ → Custody π κ → Prop := Relation.ReflTransGen Step

theorem Steps.preserves {s t : Custody π κ} (steps : Steps s t) (h : s.Invariant) :
    t.Invariant := by
  induction steps with
  | refl => exact h
  | tail _ step ih => exact step.preserves ih

end Custody

end Cinegraph.Library
