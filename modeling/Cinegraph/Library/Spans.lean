import Mathlib.Data.List.Nodup

/-!
Windows of a list as half-open intervals of positions, and lists of intervals that cover
the positions of a list from left to right.
-/

namespace Cinegraph.Library

/-- The items from position `span.1` up to, but not at, position `span.2`. -/
def window (items : List α) (span : Nat × Nat) : List α :=
  (items.drop span.1).take (span.2 - span.1)

namespace Spans

def shift (start : Nat) (span : Nat × Nat) : Nat × Nat := (start + span.1, start + span.2)

/-- Intervals that start one behind the other and leave no position below `bound` out. -/
structure Cover (bound : Nat) (spans : List (Nat × Nat)) : Prop where
  inside : ∀ span ∈ spans, span.1 < span.2 ∧ span.2 ≤ bound
  increasing : spans.Pairwise fun earlier later => earlier.1 < later.1
  covered : ∀ position < bound, ∃ span ∈ spans, span.1 ≤ position ∧ position < span.2

variable {bound start stop : Nat} {spans : List (Nat × Nat)}

theorem Cover.empty : Cover 0 [] :=
  ⟨fun _ member => absurd member List.not_mem_nil, List.Pairwise.nil,
    fun _ below => absurd below (Nat.not_lt_zero _)⟩

theorem Cover.whole (some_item : 0 < bound) : Cover bound [(0, bound)] where
  inside span member := by
    rw [List.mem_singleton.mp member]
    exact ⟨some_item, Nat.le_refl _⟩
  increasing := List.pairwise_singleton _ _
  covered position below := ⟨_, List.mem_singleton_self _, Nat.zero_le _, below⟩

/-- An interval from the beginning, and a cover of what is left behind a start inside it. -/
theorem Cover.cons (later : Cover (bound - start) spans) (moved : 0 < start)
    (touching : start ≤ stop) (stops : stop ≤ bound) :
    Cover bound ((0, stop) :: spans.map (shift start)) where
  inside := by
    rw [List.forall_mem_cons]
    refine ⟨⟨by dsimp only; omega, stops⟩, ?_⟩
    rw [List.forall_mem_map]
    intro span member
    obtain ⟨order, below⟩ := later.inside span member
    dsimp only [shift]
    omega
  increasing := by
    rw [List.pairwise_cons, List.forall_mem_map, List.pairwise_map]
    refine ⟨fun span _ => by dsimp only [shift]; omega, later.increasing.imp ?_⟩
    intro earlier behind order
    dsimp only [shift]
    omega
  covered := by
    intro position below
    by_cases first : position < stop
    · exact ⟨_, List.mem_cons_self, Nat.zero_le _, first⟩
    · obtain ⟨span, member, after, before⟩ := later.covered (position - start) (by omega)
      refine ⟨shift start span, List.mem_cons_of_mem _ (List.mem_map_of_mem member), ?_⟩
      dsimp only [shift]
      omega

end Spans

theorem window_prefix (taken rest : List α) : window (taken ++ rest) (0, taken.length) = taken := by
  simp [window]

theorem window_shift (items : List α) (start : Nat) (span : Nat × Nat) :
    window items (Spans.shift start span) = window (items.drop start) span := by
  simp only [window, Spans.shift, List.drop_drop, Nat.add_sub_add_left]

end Cinegraph.Library
