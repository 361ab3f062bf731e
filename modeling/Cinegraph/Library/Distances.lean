import Mathlib.Data.List.Basic
import Mathlib.Data.Set.Basic
import Mathlib.Order.Lattice

/-!
Distances from some named points, kept along a list of edges that a search has numbered by its hops:
each edge brings its ends at least as near as its own number.
-/

namespace Cinegraph.Library

variable {ι κ : Type*} [DecidableEq κ]

/-- The distances behind an edge with the given ends and number. -/
def nearer (distance : κ → Int) (a b : κ) (hop : Int) : κ → Int := fun point =>
  if point = a ∨ point = b then min (distance point) hop else distance point

/-- What the edges so far say of the distances: the named points are at zero, no other point is, and
the ends of an edge are not farther than its number. -/
structure Distances (named : Set κ) (ends : ι → κ × κ) (hop : ι → Int) (before : List ι)
    (distance : κ → Int) : Prop where
  zero : ∀ {point}, point ∈ named → distance point = 0
  positive : ∀ {point}, point ∉ named → 1 ≤ distance point
  near : ∀ edge ∈ before, distance (ends edge).1 ≤ hop edge ∧ distance (ends edge).2 ≤ hop edge

variable {named : Set κ} {ends : ι → κ × κ} {hop : ι → Int} {before : List ι} {distance : κ → Int}

omit [DecidableEq κ] in
theorem Distances.start (zero : ∀ point ∈ named, distance point = 0)
    (positive : ∀ point ∉ named, 1 ≤ distance point) :
    Distances named ends hop ([] : List ι) distance :=
  ⟨fun {_} => zero _, fun {_} => positive _, fun _ member => absurd member List.not_mem_nil⟩

theorem Distances.next (distances : Distances named ends hop before distance) {edge : ι}
    (numbered : 1 ≤ hop edge) : Distances named ends hop (before ++ [edge])
      (nearer distance (ends edge).1 (ends edge).2 (hop edge)) where
  zero {point} inside := by
    unfold nearer
    have zero := distances.zero inside
    split <;> omega
  positive {point} outside := by
    unfold nearer
    have positive := distances.positive outside
    split <;> omega
  near other member := by
    unfold nearer
    rcases List.mem_append.mp member with earlier | last
    · obtain ⟨first, second⟩ := distances.near other earlier
      constructor <;> split <;> omega
    · obtain rfl := List.mem_singleton.mp last
      rw [if_pos (Or.inl rfl), if_pos (Or.inr rfl)]
      omega

omit [DecidableEq κ] in
/-- An edge is one step away exactly where one of its ends is named. -/
theorem Distances.first_iff (distances : Distances named ends hop before distance) {a b : κ} :
    min (distance a) (distance b) + 1 = 1 ↔ a ∈ named ∨ b ∈ named := by
  constructor
  · intro first
    by_contra neither
    rw [not_or] at neither
    have left := distances.positive neither.1
    have right := distances.positive neither.2
    omega
  · intro either
    have nonneg (point : κ) : 0 ≤ distance point := by
      by_cases inside : point ∈ named
      · exact (distances.zero inside).ge
      · exact (distances.positive inside).trans' (by decide)
    have left := nonneg a
    have right := nonneg b
    rcases either with inside | inside
    · have zero := distances.zero inside
      omega
    · have zero := distances.zero inside
      omega

omit [DecidableEq κ] in
/-- An edge that touches a first one, but no named point, is two steps away. -/
theorem Distances.second (distances : Distances named ends hop before distance) {a b : κ}
    (outside : a ∉ named ∧ b ∉ named) {edge : ι} (earlier : edge ∈ before) (first : hop edge = 1)
    (touches : ∃ point ∈ [(ends edge).1, (ends edge).2], point ∈ [a, b]) :
    min (distance a) (distance b) + 1 = 2 := by
  have left := distances.positive outside.1
  have right := distances.positive outside.2
  obtain ⟨near_left, near_right⟩ := distances.near edge earlier
  obtain ⟨point, endpoint, touched⟩ := touches
  have near : distance point ≤ 1 := by
    rcases List.mem_pair.mp endpoint with rfl | rfl <;> omega
  rcases List.mem_pair.mp touched with rfl | rfl <;> omega

end Cinegraph.Library
