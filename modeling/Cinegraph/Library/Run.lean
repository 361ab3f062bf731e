import Mathlib.Init

/-!
Runs of a system of interleaved parties: each action is one atomic step of some
party, and is refused where that party cannot take it.
-/

namespace Cinegraph.Library

variable {σ α : Type}

/-- The runs whose steps all meet `C` in the state they are taken in. -/
inductive Run (step : σ → α → Option σ) (C : σ → α → Prop) (first : σ) : σ → Prop where
  | start : Run step C first first
  | next {s t : σ} {a : α} (run : Run step C first s) (meets : C s a)
      (taken : step s a = some t) : Run step C first t

namespace Run

variable {step : σ → α → Option σ} {C D : σ → α → Prop} {first s t : σ}

/-- What one step preserves, a run preserves. -/
theorem invariant {I : σ → Prop} (run : Run step C first s) (init : I first)
    (preserved : ∀ s t a, I s → C s a → step s a = some t → I t) : I s := by
  induction run with
  | start => exact init
  | next _ meets taken ih => exact preserved _ _ _ ih meets taken

theorem trans (run : Run step C first s) (more : Run step C s t) : Run step C first t := by
  induction more with
  | start => exact run
  | next _ meets taken ih => exact .next ih meets taken

/-- A run that meets a condition meets every weaker one. -/
theorem mono (run : Run step C first s) (weaker : ∀ s a, C s a → D s a) : Run step D first s := by
  induction run with
  | start => exact .start
  | next _ meets taken ih => exact ih.next (weaker _ _ meets) taken

/-- One step, if it meets a decidable condition. -/
def checked (step : σ → α → Option σ) (C : σ → α → Prop) [∀ s a, Decidable (C s a)]
    (s : σ) (a : α) : Option σ :=
  if C s a then step s a else none

theorem of_checked [∀ s a, Decidable (C s a)] {actions : List α}
    (executed : actions.foldlM (checked step C) s = some t) : Run step C s t := by
  induction actions generalizing s with
  | nil =>
      cases executed
      exact .start
  | cons a rest ih =>
      rw [List.foldlM_cons] at executed
      obtain ⟨middle, taken, remaining⟩ := Option.bind_eq_some_iff.mp executed
      unfold checked at taken
      split at taken
      · exact (Run.start.next ‹_› taken).trans (ih remaining)
      · cases taken

/-- Executing a list of actions reaches a state, which may be tested. -/
theorem exists_of_checked (step : σ → α → Option σ) (C : σ → α → Prop)
    [∀ s a, Decidable (C s a)] (s : σ) (actions : List α) (p : σ → Bool)
    (test : (actions.foldlM (checked step C) s).any p = true) :
    ∃ t, Run step C s t ∧ p t = true := by
  obtain ⟨t, executed, holds⟩ := (Option.any_eq_true p _).mp test
  exact ⟨t, of_checked executed, holds⟩

end Run

end Cinegraph.Library
