import Mathlib.Data.List.Basic

/-!
The pieces of a list that is split where a predicate holds.
-/

namespace Cinegraph.Library

theorem mem_splitOnP {α : Type} {p : α → Bool} {items : List α} {item : α} (member : item ∈ items) :
    p item = true ∨ ∃ piece ∈ items.splitOnP p, item ∈ piece := by
  induction items with
  | nil => exact absurd member List.not_mem_nil
  | cons first rest ih =>
      rw [List.splitOnP_cons_eq_if_modifyHead]
      by_cases splits : p first = true
      · rw [if_pos splits]
        rcases List.mem_cons.mp member with rfl | later
        · exact .inl splits
        · exact (ih later).imp_right fun ⟨piece, among, inside⟩ => ⟨piece, List.mem_cons_of_mem _ among, inside⟩
      · rw [if_neg splits]
        cases pieces : rest.splitOnP p with
        | nil => exact absurd pieces (List.splitOnP_ne_nil p rest)
        | cons head others =>
            rw [List.modifyHead_cons]
            rcases List.mem_cons.mp member with rfl | later
            · exact .inr ⟨_, List.mem_cons_self, List.mem_cons_self⟩
            · rcases ih later with separates | ⟨piece, among, inside⟩
              · exact .inl separates
              · rw [pieces] at among
                rcases List.mem_cons.mp among with rfl | other
                · exact .inr ⟨_, List.mem_cons_self, List.mem_cons_of_mem _ inside⟩
                · exact .inr ⟨piece, List.mem_cons_of_mem _ other, inside⟩

theorem length_of_mem_splitOnP {α : Type} {p : α → Bool} {items piece : List α}
    (member : piece ∈ items.splitOnP p) : piece.length ≤ items.length := by
  induction items generalizing piece with
  | nil =>
      rw [List.splitOnP_nil, List.mem_singleton] at member
      exact Nat.le_of_eq (congrArg List.length member)
  | cons first rest ih =>
      rw [List.splitOnP_cons_eq_if_modifyHead] at member
      rw [List.length_cons]
      split at member
      · rcases List.mem_cons.mp member with rfl | later
        · exact Nat.zero_le _
        · exact Nat.le_succ_of_le (ih later)
      · cases pieces : rest.splitOnP p with
        | nil => exact absurd pieces (List.splitOnP_ne_nil p rest)
        | cons head others =>
            rw [pieces, List.modifyHead_cons] at member
            rcases List.mem_cons.mp member with rfl | later
            · rw [List.length_cons]
              exact Nat.succ_le_succ (ih (pieces ▸ List.mem_cons_self))
            · exact Nat.le_succ_of_le (ih (pieces ▸ List.mem_cons_of_mem _ later))

/-- No piece has an item that separates. -/
theorem not_of_mem_splitOnP {α : Type} {p : α → Bool} {items piece : List α} {item : α}
    (member : piece ∈ items.splitOnP p) (inside : item ∈ piece) : p item = false := by
  induction items generalizing piece with
  | nil =>
      rw [List.splitOnP_nil, List.mem_singleton] at member
      rw [member] at inside
      cases inside
  | cons first rest ih =>
      rw [List.splitOnP_cons_eq_if_modifyHead] at member
      by_cases splits : p first = true
      · rw [if_pos splits] at member
        rcases List.mem_cons.mp member with rfl | later
        · cases inside
        · exact ih later inside
      · rw [if_neg splits] at member
        cases pieces : rest.splitOnP p with
        | nil => exact absurd pieces (List.splitOnP_ne_nil p rest)
        | cons head others =>
            rw [pieces, List.modifyHead_cons] at member
            rcases List.mem_cons.mp member with rfl | later
            · rcases List.mem_cons.mp inside with rfl | old
              · exact Bool.not_eq_true _ ▸ splits
              · exact ih (pieces ▸ List.mem_cons_self) old
            · exact ih (pieces ▸ List.mem_cons_of_mem _ later) inside

end Cinegraph.Library
