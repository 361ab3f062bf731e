import Mathlib.Data.List.Basic

/-!
Cutting a list into stretches that fit, each as long as it can be. Where every stretch inside a
fitting one fits as well, no other way to cut the list needs fewer parts.
-/

namespace Cinegraph.Library.Greedy

variable {α : Type} (fits : List α → Prop) [DecidablePred fits]

/-- Cut the items, with the part that is open when they begin. -/
def parts (current : List α) : List α → List (List α)
  | [] => if current.isEmpty then [] else [current]
  | item :: items =>
      if ¬current.isEmpty ∧ ¬fits (current ++ [item]) then current :: parts [item] items
      else parts (current ++ [item]) items

variable {fits} {current items : List α}

theorem parts_flatten : (parts fits current items).flatten = current ++ items := by
  induction items generalizing current with
  | nil =>
      rw [parts, List.append_nil]
      split
      · rename_i none_open
        exact (List.isEmpty_iff.mp none_open).symm
      · exact List.flatten_singleton
  | cons item items ih =>
      rw [parts]
      split
      · rw [List.flatten_cons, ih, List.singleton_append]
      · rw [ih, List.append_assoc, List.singleton_append]

theorem parts_filled : ∀ part ∈ parts fits current items, part ≠ [] := by
  induction items generalizing current with
  | nil =>
      intro part member
      rw [parts] at member
      split at member
      · exact absurd member List.not_mem_nil
      · rename_i some_item
        rw [List.mem_singleton.mp member]
        exact fun none_open => some_item (List.isEmpty_iff.mpr none_open)
  | cons item items ih =>
      rw [parts]
      split
      · rename_i closed
        rw [List.forall_mem_cons]
        exact ⟨fun none_open => closed.1 (List.isEmpty_iff.mpr none_open), ih⟩
      · exact ih

/-- Every part fits when the open one does and every item does alone. -/
theorem parts_fit (alone : ∀ item ∈ items, fits [item]) (now : current ≠ [] → fits current) :
    ∀ part ∈ parts fits current items, fits part := by
  induction items generalizing current with
  | nil =>
      intro part member
      rw [parts] at member
      split at member
      · exact absurd member List.not_mem_nil
      · rename_i some_item
        rw [List.mem_singleton.mp member]
        exact now fun none_open => some_item (List.isEmpty_iff.mpr none_open)
  | cons item items ih =>
      obtain ⟨here, later⟩ := List.forall_mem_cons.mp alone
      rw [parts]
      split
      · rename_i closed
        rw [List.forall_mem_cons]
        exact ⟨now fun none_open => closed.1 (List.isEmpty_iff.mpr none_open),
          ih later fun _ => here⟩
      · rename_i grown
        refine ih later fun _ => ?_
        by_cases none_open : current = []
        · rw [none_open]
          exact here
        · by_contra too_long
          exact grown ⟨fun empty => none_open (List.isEmpty_iff.mp empty), too_long⟩

/-- Another cut of a list that ends with the open part and the items has as many parts at least:
its first part ends inside the open part whenever that one has to be closed. -/
theorem parts_minimal (inside : ∀ before part after, part ≠ [] →
      fits (before ++ part ++ after) → fits part)
    (some_open : current ≠ []) {others : List (List α)} (before : List α)
    (whole : others.flatten = before ++ (current ++ items)) (each : ∀ part ∈ others, fits part) :
    (parts fits current items).length ≤ others.length := by
  have some_part {others : List (List α)} {before current rest : List α}
      (some_open : current ≠ []) (whole : others.flatten = before ++ (current ++ rest)) :
      0 < others.length := by
    rw [List.length_pos_iff]
    rintro rfl
    exact some_open (List.append_eq_nil_iff.mp (List.append_eq_nil_iff.mp whole.symm).2).1
  induction items generalizing current others before with
  | nil =>
      have := some_part some_open whole
      rw [parts]
      split
      · exact Nat.zero_le _
      · exact this
  | cons item items ih =>
      rw [parts]
      split
      · rename_i closed
        cases others with
        | nil => exact absurd (some_part some_open whole) (Nat.lt_irrefl 0)
        | cons part others =>
            obtain ⟨first, later⟩ := List.forall_mem_cons.mp each
            rw [List.flatten_cons, ← List.append_assoc] at whole
            rcases List.append_eq_append_iff.mp whole with ⟨left, opened, rest⟩ | ⟨more, long, rest⟩
            · -- the first part ends before the item
              exact Nat.succ_le_succ (ih (List.cons_ne_nil _ _) left rest later)
            · -- the first part takes the item too, unless it ends right before it
              cases more with
              | nil =>
                  have again : others.flatten = [] ++ ([item] ++ items) := rest.symm
                  exact Nat.succ_le_succ (ih (List.cons_ne_nil _ _) [] again later)
              | cons head more =>
                  rw [List.cons_append] at rest
                  cases rest
                  refine absurd (inside before (current ++ [item]) more ?_ ?_) closed.2
                  · exact List.append_ne_nil_of_right_ne_nil _ (List.cons_ne_nil _ _)
                  · rw [long] at first
                    rwa [List.append_assoc, List.append_assoc, List.singleton_append,
                      ← List.append_assoc]
      · refine ih (List.append_ne_nil_of_left_ne_nil some_open _) before ?_ each
        rw [whole, List.append_assoc, List.singleton_append]

/-- The cut of all items has no more parts than any other one. -/
theorem parts_least (inside : ∀ before part after, part ≠ [] →
      fits (before ++ part ++ after) → fits part)
    {others : List (List α)} (whole : others.flatten = items) (each : ∀ part ∈ others, fits part) :
    (parts fits [] items).length ≤ others.length := by
  cases items with
  | nil => exact Nat.zero_le _
  | cons item items =>
      have opened : parts fits [] (item :: items) = parts fits [item] items := by
        rw [parts, if_neg (by simp), List.nil_append]
      rw [opened]
      exact parts_minimal inside (List.cons_ne_nil _ _) [] whole each

end Cinegraph.Library.Greedy
