import Mathlib.Order.Lattice

/-!
Values that are read, worked on and written back under a condition. Every write
raises the version of its key, so a reader whose version is still the stored one
has read what is stored.
-/

namespace Cinegraph.Library

variable {κ ρ ν : Type*} [LinearOrder ν] (version : ρ → ν)

/-- A value that was stored once: it still is, or a later version is. -/
def Seen (read : ρ) (stored : Option ρ) : Prop :=
  ∃ current, stored = some current ∧ (read = current ∨ version read < version current)

namespace Seen

variable {version} {read current next : ρ} {stored : Option ρ}

theorem of_stored (here : stored = some current) : Seen version current stored :=
  ⟨current, here, .inl rfl⟩

/-- A write that raises the version keeps what was seen seen. -/
theorem write (seen : Seen version read (some current)) (raises : version current < version next) :
    Seen version read (some next) := by
  obtain ⟨_, ⟨⟩, same | earlier⟩ := seen
  · exact ⟨next, rfl, .inr (same ▸ raises)⟩
  · exact ⟨next, rfl, .inr (lt_trans earlier raises)⟩

/-- A reader that is not behind has read what is stored. -/
theorem eq_current (seen : Seen version read (some current))
    (level : version current ≤ version read) : read = current := by
  obtain ⟨_, ⟨⟩, same | earlier⟩ := seen
  · exact same
  · exact absurd earlier (not_lt.mpr level)

end Seen

end Cinegraph.Library
