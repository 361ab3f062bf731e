import Cinegraph.Library.Exec

/-!
Units of work: a computation on a copy of a store, of which the store takes over what the copy
is at a commit. What was not committed is lost, whether the computation raises or returns.
-/

namespace Cinegraph.Library

@[ext]
structure Transaction (σ : Type) where
  working : σ
  committed : σ

namespace Transaction

variable {σ ε α β : Type}

def read (f : σ → α) : Exec (Transaction σ) ε α := do
  let t ← get
  return f t.working

def write (f : σ → σ) : Exec (Transaction σ) ε PUnit :=
  modify fun t => { t with working := f t.working }

def commit : Exec (Transaction σ) ε PUnit :=
  modify fun t => { t with committed := t.working }

/-- The outcome of a unit of work, and the store after it. -/
def atomically (p : Exec (Transaction σ) ε α) (s : σ) : Except ε α × σ :=
  ((p.run ⟨s, s⟩).1, (p.run ⟨s, s⟩).2.committed)

section Rules

open Exec

variable {s base : σ}

@[simp] theorem post_read (f : σ → α) {Q : α → Transaction σ → Prop} {E : ε → Transaction σ → Prop}
    {t : Transaction σ} : Post (read f) Q E t ↔ Q (f t.working) t := Iff.rfl

@[simp] theorem post_write (f : σ → σ) {Q : PUnit → Transaction σ → Prop}
    {E : ε → Transaction σ → Prop} {t : Transaction σ} :
    Post (write f) Q E t ↔ Q ⟨⟩ { t with working := f t.working } := Iff.rfl

@[simp] theorem post_commit {Q : PUnit → Transaction σ → Prop} {E : ε → Transaction σ → Prop}
    {t : Transaction σ} : Post commit Q E t ↔ Q ⟨⟩ ⟨t.working, t.working⟩ := Iff.rfl

/-- A part of a unit of work that commits nothing: where it returns, `Q` holds of the copy. -/
def Within (p : Exec (Transaction σ) ε α) (Q : α → σ → Prop) (s : σ) : Prop :=
  ∀ base, Post p (fun a t => t.committed = base ∧ Q a t.working) (fun _ t => t.committed = base)
    ⟨s, base⟩

theorem Within.mono {p : Exec (Transaction σ) ε α} {Q R : α → σ → Prop} (within : Within p Q s)
    (weaker : ∀ a t, Q a t → R a t) : Within p R s := fun base =>
  (within base).mono (fun _ _ found => ⟨found.1, weaker _ _ found.2⟩) fun _ _ kept => kept

theorem within_pure (a : α) {Q : α → σ → Prop} (holds : Q a s) :
    Within (pure a : Exec (Transaction σ) ε α) Q s := fun _ => ⟨rfl, holds⟩

theorem within_throw (e : ε) {Q : α → σ → Prop} :
    Within (throw e : Exec (Transaction σ) ε α) Q s := fun _ => rfl

theorem within_read (f : σ → α) {Q : α → σ → Prop} (holds : Q (f s) s) :
    Within (read f : Exec (Transaction σ) ε α) Q s := fun _ => ⟨rfl, holds⟩

theorem within_write (f : σ → σ) {Q : PUnit → σ → Prop} (holds : Q ⟨⟩ (f s)) :
    Within (write f : Exec (Transaction σ) ε PUnit) Q s := fun _ => ⟨rfl, holds⟩

theorem within_lift {value : Except ε α} {Q : α → σ → Prop} (holds : ∀ a, value = .ok a → Q a s) :
    Within (Exec.lift value) Q s := fun _ =>
  (post_lift value).mpr ⟨fun a found => ⟨rfl, holds a found⟩, fun _ _ => rfl⟩

theorem Within.bind {p : Exec (Transaction σ) ε α} {f : α → Exec (Transaction σ) ε β}
    {Q : β → σ → Prop} (within : Within p (fun a t => Within (f a) Q t) s) :
    Within (p >>= f) Q s := by
  intro base
  rw [post_bind]
  apply (within base).mono
  · rintro a ⟨t, _⟩ ⟨rfl, later⟩
    exact later _
  · exact fun _ _ kept => kept

theorem Within.map {p : Exec (Transaction σ) ε α} {f : α → β} {Q : β → σ → Prop}
    (within : Within p (fun a => Q (f a)) s) : Within (f <$> p) Q s := fun base =>
  (post_map p f).mpr (within base)

theorem Within.discard {p : Exec (Transaction σ) ε α} {Q : PUnit → σ → Prop}
    (within : Within p (fun _ => Q ⟨⟩) s) : Within (discard p) Q s := fun base =>
  (post_discard p).mpr (within base)

theorem within_ite {c : Prop} [Decidable c] {p q : Exec (Transaction σ) ε α} {Q : α → σ → Prop}
    (yes : c → Within p Q s) (no : ¬c → Within q Q s) : Within (if c then p else q) Q s := by
  split
  · exact yes ‹_›
  · exact no ‹_›

theorem within_raiseIf {c : Prop} [Decidable c] {e : ε} {Q : Unit → σ → Prop}
    (holds : ¬c → Q () s) : Within (Exec.raiseIf c e) Q s :=
  within_ite (fun _ => within_throw e) fun passes => within_pure () (holds passes)

/-- The rest of a unit of work, on a copy `s` of `base`: where it returns, `R` holds of what is
committed, and where it raises, nothing is. -/
def Commits (p : Exec (Transaction σ) ε α) (R : α → σ → Prop) (base s : σ) : Prop :=
  Post p (fun a t => R a t.committed) (fun _ t => t.committed = base) ⟨s, base⟩

theorem commits_pure (a : α) {R : α → σ → Prop} (holds : R a base) :
    Commits (pure a : Exec (Transaction σ) ε α) R base s := holds

theorem commits_throw (e : ε) {R : α → σ → Prop} :
    Commits (throw e : Exec (Transaction σ) ε α) R base s := rfl

theorem commits_commit {a : α} {R : α → σ → Prop} (holds : R a s) :
    Commits (do commit; return a : Exec (Transaction σ) ε α) R base s := holds

theorem Commits.mono {p : Exec (Transaction σ) ε α} {R R' : α → σ → Prop}
    (commits : Commits p R base s) (weaker : ∀ a t, R a t → R' a t) : Commits p R' base s :=
  Post.mono commits (fun _ _ found => weaker _ _ found) fun _ _ kept => kept

theorem commits_map {p : Exec (Transaction σ) ε α} {f : α → β} {R : β → σ → Prop} :
    Commits (f <$> p) R base s ↔ Commits p (fun a => R (f a)) base s := post_map p f

/-- An exception replaced by another leaves what it left. -/
theorem Commits.rethrow {p : Exec (Transaction σ) ε α} {R : α → σ → Prop}
    (commits : Commits p R base s) (f : ε → ε) :
    Commits (tryCatch p fun e => throw (f e)) R base s := by
  rw [Commits, post_tryCatch]
  exact Post.mono commits (fun _ _ found => found) fun _ _ kept => kept

theorem Within.commits {p : Exec (Transaction σ) ε α} {f : α → Exec (Transaction σ) ε β}
    {R : β → σ → Prop} (within : Within p (fun a t => Commits (f a) R base t) s) :
    Commits (p >>= f) R base s := by
  rw [Commits, post_bind]
  apply (within base).mono
  · rintro a ⟨t, _⟩ ⟨rfl, rest⟩
    exact rest
  · exact fun _ _ kept => kept

/-- A unit of work of which only the last part commits returns with what that part leaves, or
raises and leaves the store as it is. -/
theorem Commits.atomically {p : Exec (Transaction σ) ε α} {R : α → σ → Prop}
    (commits : Commits p R s s) :
    (∃ a t, atomically p s = (.ok a, t) ∧ R a t) ∨ ∃ e, atomically p s = (.error e, s) := by
  unfold Commits Post at commits
  unfold Transaction.atomically
  rcases ran : p.run ⟨s, s⟩ with ⟨e | a, t⟩
  · rw [ran] at commits
    change t.committed = s at commits
    exact .inr ⟨e, by rw [commits]⟩
  · rw [ran] at commits
    exact .inl ⟨a, t.committed, rfl, commits⟩

end Rules

end Transaction

end Cinegraph.Library
