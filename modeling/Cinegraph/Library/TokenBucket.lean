import Mathlib.Algebra.Order.Field.Basic
import Mathlib.Algebra.BigOperators.Group.List.Basic
import Mathlib.Tactic

/-!
Token buckets: a level that refills at a constant rate up to a capacity and is
drawn down by what is spent. The level is the potential that pays for the draws
of every interval.
-/

namespace Cinegraph.Library.TokenBucket

variable {K : Type*} [Field K] [LinearOrder K]

/-- What was spent from `start` to `finish`, of draws given by their time and cost. -/
def spent (start finish : K) (draws : List (K × K)) : K :=
  ((draws.filter fun draw => decide (start ≤ draw.1 ∧ draw.1 ≤ finish)).map Prod.snd).sum

/-- The level at `now` of a bucket that held `level` at `stamp`. -/
def refilled (capacity rate level stamp now : K) : K :=
  min capacity (level + max 0 (now - stamp) * rate)

theorem spent_nil (start finish : K) : spent start finish [] = 0 := by
  simp [spent]

theorem spent_cons_within {start finish time : K} (cost : K) (draws : List (K × K))
    (lower : start ≤ time) (upper : time ≤ finish) :
    spent start finish ((time, cost) :: draws) = cost + spent start finish draws := by
  simp [spent, lower, upper]

theorem spent_cons_before {start finish time : K} (cost : K) (draws : List (K × K))
    (earlier : time < start) :
    spent start finish ((time, cost) :: draws) = spent start finish draws := by
  have out : ¬ start ≤ time := not_le.mpr earlier
  simp [spent, out]

theorem spent_cons_after {start finish time : K} (cost : K) (draws : List (K × K))
    (later : finish < time) :
    spent start finish ((time, cost) :: draws) = spent start finish draws := by
  have out : ¬ time ≤ finish := not_le.mpr later
  simp [spent, out]

/-- Nothing was spent in an interval that begins after the last draw. -/
theorem spent_of_all_before {start finish stamp : K} {draws : List (K × K)}
    (past : ∀ draw ∈ draws, draw.1 ≤ stamp) (later : stamp < start) :
    spent start finish draws = 0 := by
  induction draws with
  | nil => exact spent_nil start finish
  | cons draw draws ih =>
      have first : draw.1 < start := lt_of_le_of_lt (past draw List.mem_cons_self) later
      rw [spent_cons_before draw.2 draws first]
      exact ih fun other member => past other (List.mem_cons_of_mem _ member)

/-- The end of an interval does not matter once it is past the last draw. -/
theorem spent_of_all_within {start finish stamp : K} {draws : List (K × K)}
    (past : ∀ draw ∈ draws, draw.1 ≤ stamp) (later : stamp ≤ finish) :
    spent start finish draws = spent start stamp draws := by
  unfold spent
  congr 2
  apply List.filter_congr
  intro draw member
  have early : draw.1 ≤ stamp := past draw member
  simp [early, early.trans later]

/-- A bucket at `level` since `stamp` has paid for the draws: what is left of it and
what was spent since any moment fit the capacity and the refill since that moment. -/
structure Pays (capacity rate level stamp : K) (draws : List (K × K)) : Prop where
  past : ∀ draw ∈ draws, draw.1 ≤ stamp
  level_nonneg : 0 ≤ level
  level_le : level ≤ capacity
  since : ∀ start, start ≤ stamp →
    spent start stamp draws + level ≤ capacity + rate * (stamp - start)
  within : ∀ start finish, start ≤ finish →
    spent start finish draws ≤ capacity + rate * (finish - start)

variable [IsStrictOrderedRing K] {capacity rate level stamp now cost : K}

omit [IsStrictOrderedRing K] in
theorem refilled_le : refilled capacity rate level stamp now ≤ capacity := min_le_left _ _

theorem refilled_nonneg (capacity_nonneg : 0 ≤ capacity) (rate_nonneg : 0 ≤ rate)
    (level_nonneg : 0 ≤ level) : 0 ≤ refilled capacity rate level stamp now := by
  have gained : 0 ≤ max 0 (now - stamp) * rate := mul_nonneg (le_max_left _ _) rate_nonneg
  exact le_min capacity_nonneg (add_nonneg level_nonneg gained)

/-- Without a step back in time the refill is at most the rate times the elapsed time. -/
theorem refilled_le_elapsed (forward : stamp ≤ now) :
    refilled capacity rate level stamp now ≤ level + rate * (now - stamp) := by
  have elapsed : max 0 (now - stamp) = now - stamp := max_eq_right (sub_nonneg.mpr forward)
  rw [refilled, elapsed, mul_comm rate]
  exact min_le_right _ _

/-- Refilling in two goes gives at least as much as in one. -/
theorem refilled_le_refilled {later : K} (rate_nonneg : 0 ≤ rate) (first : stamp ≤ now)
    (second : now ≤ later) :
    refilled capacity rate level stamp later ≤
      refilled capacity rate (refilled capacity rate level stamp now) now later := by
  have whole : refilled capacity rate level stamp later ≤ level + rate * (later - stamp) :=
    refilled_le_elapsed (first.trans second)
  have full : refilled capacity rate level stamp later ≤ capacity := refilled_le
  have gained : 0 ≤ (later - now) * rate := mul_nonneg (sub_nonneg.mpr second) rate_nonneg
  have elapsed : max 0 (later - now) = later - now := max_eq_right (sub_nonneg.mpr second)
  have before : max 0 (now - stamp) = now - stamp := max_eq_right (sub_nonneg.mpr first)
  have split : level + rate * (later - stamp) =
      level + (now - stamp) * rate + (later - now) * rate := by ring
  apply le_min full
  rw [elapsed, refilled.eq_def capacity rate level stamp now, before, min_add]
  exact le_min (by linarith) (by linarith)

namespace Pays

variable {draws : List (K × K)}

theorem fresh (level_nonneg : 0 ≤ level) (level_le : level ≤ capacity) (rate_nonneg : 0 ≤ rate) :
    Pays capacity rate level stamp [] where
  past := by simp
  level_nonneg := level_nonneg
  level_le := level_le
  since start earlier := by
    have gained : 0 ≤ rate * (stamp - start) := mul_nonneg rate_nonneg (sub_nonneg.mpr earlier)
    rw [spent_nil]
    linarith
  within start finish earlier := by
    have gained : 0 ≤ rate * (finish - start) := mul_nonneg rate_nonneg (sub_nonneg.mpr earlier)
    rw [spent_nil]
    linarith

/-- A lower level has paid as well. -/
theorem lower {less : K} (pays : Pays capacity rate level stamp draws) (less_nonneg : 0 ≤ less)
    (le : less ≤ level) : Pays capacity rate less stamp draws where
  past := pays.past
  level_nonneg := less_nonneg
  level_le := le.trans pays.level_le
  since start earlier := by
    have paid := pays.since start earlier
    linarith
  within := pays.within

/-- Letting time pass adds to the level at most what the interval has grown by. -/
theorem refill (pays : Pays capacity rate level stamp draws) (rate_nonneg : 0 ≤ rate)
    (forward : stamp ≤ now) :
    Pays capacity rate (refilled capacity rate level stamp now) now draws where
  past draw member := (pays.past draw member).trans forward
  level_nonneg := by
    have capacity_nonneg : 0 ≤ capacity := pays.level_nonneg.trans pays.level_le
    exact refilled_nonneg capacity_nonneg rate_nonneg pays.level_nonneg
  level_le := refilled_le
  since start earlier := by
    rcases le_or_gt start stamp with old | young
    · have before := pays.since start old
      have gained : refilled capacity rate level stamp now ≤ level + rate * (now - stamp) :=
        refilled_le_elapsed forward
      rw [spent_of_all_within pays.past forward]
      linarith
    · have full : refilled capacity rate level stamp now ≤ capacity := refilled_le
      have gained : 0 ≤ rate * (now - start) := mul_nonneg rate_nonneg (sub_nonneg.mpr earlier)
      rw [spent_of_all_before pays.past young]
      linarith
  within := pays.within

/-- A draw is paid for out of the level. -/
theorem draw (pays : Pays capacity rate level stamp draws) (rate_nonneg : 0 ≤ rate)
    (cost_nonneg : 0 ≤ cost) (covered : cost ≤ level) :
    Pays capacity rate (level - cost) stamp ((stamp, cost) :: draws) where
  past draw member := by
    rcases List.mem_cons.mp member with rfl | older
    · exact le_rfl
    · exact pays.past draw older
  level_nonneg := sub_nonneg.mpr covered
  level_le := by
    have := pays.level_le
    linarith
  since start earlier := by
    have before := pays.since start earlier
    rw [spent_cons_within cost draws earlier le_rfl]
    linarith
  within start finish earlier := by
    rcases lt_or_ge finish stamp with early | late
    · rw [spent_cons_after cost draws early]
      exact pays.within start finish earlier
    rcases lt_or_ge stamp start with before | since
    · rw [spent_cons_before cost draws before]
      exact pays.within start finish earlier
    · have paid := pays.since start since
      have more : rate * (stamp - start) ≤ rate * (finish - start) :=
        mul_le_mul_of_nonneg_left (by linarith) rate_nonneg
      have left := sub_nonneg.mpr covered
      rw [spent_cons_within cost draws since late, spent_of_all_within pays.past late]
      linarith

end Pays

end Cinegraph.Library.TokenBucket
