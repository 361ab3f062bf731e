import Cinegraph.Library.Exec

/-!
Exceptions of the application and the two value types its records share: texts
of error messages are kept where the code raises them.
-/

namespace Cinegraph

open Library

inductive ErrorKind where
  | valueError
  | typeError
  | keyError
  | attributeError
  | indexError
  | overflowError
  | jsonDecodeError
  | fileExists
  | runtimeError
  | agentJobTransition
  | agentJobUnavailable
  | agentJobIdempotencyConflict
  | invalidModel
  | operational
  | permissionError
  | connectionError
  | sessionInvalid
  | invalidCredentials
  | accountDisabled
  | accountRequired
  | emailAlreadyRegistered
  | duplicateEmail
  | concurrentWatchProgressUpdate
  | profileWatchStateNotFound
  | bundleError
  | unicodeEncodeError
  | recursionError
  | osError
  | badZipFile
  | zeroDivisionError
  | tvMazeProviderError
  | tvMazeEpisodeReconciliationError
  | tvMazeShowMismatchError
  deriving DecidableEq, Repr

structure Raised where
  kind : ErrorKind
  message : String
  deriving DecidableEq, Repr

def valueError (message : String) : Raised := ⟨.valueError, message⟩

@[simp] theorem ok_map {α β : Type} (a : α) (f : α → β) :
    (f <$> (Except.ok a : Except Raised α)) = .ok (f a) := rfl

/-- A check followed by more work succeeds when both do. -/
theorem unit_bind_eq_ok {α : Type} (check : Except Raised Unit) {f : Unit → Except Raised α}
    {a : α} : (check >>= f) = .ok a ↔ check = .ok () ∧ f () = .ok a := by
  cases check with
  | error e => exact iff_of_false (fun h => by cases h) (fun h => by cases h.1)
  | ok u => exact (and_iff_right rfl).symm

/-- A check of every item succeeds when each does. -/
theorem forM_eq_ok {α : Type} {check : α → Except Raised Unit} {items : List α} :
    items.forM check = .ok () ↔ ∀ item ∈ items, check item = .ok () := by
  induction items with
  | nil => simp [pure, Except.pure]
  | cons item rest ih =>
      change (do check item; rest.forM check) = _ ↔ _
      rw [unit_bind_eq_ok, ih, List.forall_mem_cons]

/-- `if condition: raise ValueError(message)`, or a subclass of it. -/
def reject (condition : Prop) [Decidable condition] (message : String)
    (kind : ErrorKind := .valueError) : Except Raised Unit :=
  if condition then .error ⟨kind, message⟩ else .ok ()

section Reject

variable {condition : Prop} [Decidable condition] {message : String} {kind : ErrorKind}

@[simp] theorem reject_eq_ok {u : Unit} : reject condition message kind = .ok u ↔ ¬condition := by
  unfold reject
  split <;> simp_all

@[simp] theorem reject_of_not (h : ¬condition) : reject condition message kind = .ok () :=
  if_neg h

@[simp] theorem reject_bind_eq_ok {α : Type} {f : Unit → Except Raised α} {a : α} :
    (reject condition message kind >>= f) = .ok a ↔ ¬condition ∧ f () = .ok a := by
  unfold reject
  split
  · exact iff_of_false (fun h => by cases h) (fun h => h.1 ‹_›)
  · exact (and_iff_right ‹_›).symm

end Reject

/-- A constructor: the fields with the proof that they pass its checks, or what these raise. -/
def construct {α β : Type} (check : α → Except Raised Unit) (build : ∀ a, check a = .ok () → β)
    (a : α) : Except Raised β :=
  match valid : check a with
  | .ok () => .ok (build a valid)
  | .error error => .error error

section Construct

variable {α β : Type} {check : α → Except Raised Unit} {build : ∀ a, check a = .ok () → β} {a : α}

theorem construct_eq_ok {b : β} :
    construct check build a = .ok b ↔ ∃ valid, build a valid = b := by
  unfold construct
  split
  · rename_i valid
    rw [Except.ok.injEq]
    exact ⟨fun same => ⟨valid, same⟩, fun ⟨_, same⟩ => same⟩
  · rename_i error raised
    refine iff_of_false (fun h => by cases h) ?_
    rintro ⟨valid, -⟩
    cases raised.symm.trans valid

theorem construct_of_check (valid : check a = .ok ()) :
    construct check build a = .ok (build a valid) := construct_eq_ok.mpr ⟨valid, rfl⟩

theorem construct_of_not (refused : check a ≠ .ok ()) :
    ∃ error, construct check build a = .error error := by
  cases made : construct check build a with
  | ok b =>
      obtain ⟨valid, -⟩ := construct_eq_ok.mp made
      exact absurd valid refused
  | error error => exact ⟨error, rfl⟩

end Construct

inductive Zone where
  | naive
  | utc
  | other
  deriving DecidableEq, Repr

/-- An instant in microseconds together with what its zone says about it. -/
structure DateTime where
  zone : Zone
  micros : Int
  deriving DecidableEq, Repr

namespace DateTime

/-- Aware instants compare by their position on the time line. -/
instance : LE DateTime := ⟨fun a b => a.micros ≤ b.micros⟩

instance : LT DateTime := ⟨fun a b => a.micros < b.micros⟩

instance (a b : DateTime) : Decidable (a ≤ b) := inferInstanceAs (Decidable (a.micros ≤ b.micros))

instance (a b : DateTime) : Decidable (a < b) := inferInstanceAs (Decidable (a.micros < b.micros))

/-- Equality of aware instants. -/
def same (a b : DateTime) : Bool := a.micros = b.micros

/-- `value + timedelta`, in microseconds. -/
def add (value : DateTime) (delta : Int) : DateTime :=
  { value with micros := value.micros + delta }

theorem not_lt {a b : DateTime} : ¬a < b ↔ b ≤ a := Int.not_lt

theorem le_refl (a : DateTime) : a ≤ a := Int.le_refl _

theorem le_trans {a b c : DateTime} (hab : a ≤ b) (hbc : b ≤ c) : a ≤ c := Int.le_trans hab hbc

end DateTime

end Cinegraph
