import Mathlib.Control.Lawful

/-!
Methods of a mutable object: computations that read and write a state and may
raise. An exception keeps the writes made before it, so a caller that wants
them undone has to undo them.
-/

namespace Cinegraph.Library

abbrev Exec (σ ε : Type) := ExceptT ε (StateM σ)

@[simp] theorem ok_bind {ε α β : Type} (a : α) (f : α → Except ε β) :
    (Except.ok a >>= f) = f a := rfl

/-- A fallible step followed by more work succeeds when both do. -/
theorem bind_eq_ok {ε α β : Type} (p : Except ε α) {f : α → Except ε β} {b : β} :
    (p >>= f) = .ok b ↔ ∃ a, p = .ok a ∧ f a = .ok b := by
  cases p with
  | error e => exact iff_of_false (fun h => by cases h) (fun ⟨_, h, _⟩ => by cases h)
  | ok a => exact ⟨fun h => ⟨a, rfl, h⟩, fun ⟨_, same, h⟩ => by cases same; exact h⟩

/-- Two continuations that agree on what a step gives. -/
theorem bind_congr_ok {ε α β : Type} {p : Except ε α} {f g : α → Except ε β}
    (same : ∀ a, p = .ok a → f a = g a) : (p >>= f) = (p >>= g) := by
  cases p with
  | error e => rfl
  | ok a => exact same a rfl

namespace Exec

variable {σ ε α β : Type}

def run (p : Exec σ ε α) (s : σ) : Except ε α × σ := StateT.run (ExceptT.run p) s

/-- A partial lookup that raises where there is no value. -/
def require (value : Option α) (error : ε) : Exec σ ε α :=
  match value with
  | some a => pure a
  | none => throw error

/-- Run a pure fallible computation. -/
def lift (value : Except ε α) : Exec σ ε α :=
  match value with
  | .ok a => pure a
  | .error e => throw e

/-- `if condition: raise error` -/
def raiseIf (condition : Prop) [Decidable condition] (error : ε) : Exec σ ε Unit :=
  if condition then throw error else pure ()

/-- A method of a part of the object. -/
def within {τ : Type} (part : σ → τ) (put : τ → σ → σ) (p : Exec τ ε α) : Exec σ ε α :=
  ExceptT.mk fun s => ((run p (part s)).1, put (run p (part s)).2 s)

/-- `try: p except Exception: undo; raise`. -/
def rollback (p : Exec σ ε α) (undo : σ → σ) : Exec σ ε α :=
  tryCatch p (fun e => do
    modify undo
    throw e)

@[simp] theorem run_pure (a : α) (s : σ) : run (pure a : Exec σ ε α) s = (.ok a, s) := rfl

@[simp] theorem run_throw (e : ε) (s : σ) :
    run (throw e : Exec σ ε α) s = (.error e, s) := rfl

@[simp] theorem run_get (s : σ) : run (get : Exec σ ε σ) s = (.ok s, s) := rfl

@[simp] theorem run_set (t s : σ) : run (set t : Exec σ ε PUnit) s = (.ok ⟨⟩, t) := rfl

@[simp] theorem run_modify (f : σ → σ) (s : σ) :
    run (modify f : Exec σ ε PUnit) s = (.ok ⟨⟩, f s) := rfl

theorem run_bind (p : Exec σ ε α) (f : α → Exec σ ε β) (s : σ) :
    run (p >>= f) s =
      match run p s with
      | (.ok a, t) => run (f a) t
      | (.error e, t) => (.error e, t) := by
  simp only [run, ExceptT.run_bind, StateT.run_bind]
  rcases StateT.run (ExceptT.run p) s with ⟨_ | _, t⟩ <;> rfl

theorem run_within {τ : Type} (part : σ → τ) (put : τ → σ → σ) (p : Exec τ ε α) (s : σ) :
    run (within part put p) s = ((run p (part s)).1, put (run p (part s)).2 s) := rfl

/-- A computation followed by another returns where both do. -/
theorem run_bind_eq_ok {p : Exec σ ε α} {f : α → Exec σ ε β} {s t : σ} {b : β} :
    run (p >>= f) s = (.ok b, t) ↔
      ∃ a middle, run p s = (.ok a, middle) ∧ run (f a) middle = (.ok b, t) := by
  rw [run_bind]
  rcases run p s with ⟨e | a, middle⟩
  · exact iff_of_false (fun h => by cases h) (fun ⟨_, _, h, _⟩ => by cases h)
  · exact ⟨fun h => ⟨a, middle, rfl, h⟩, fun ⟨_, _, same, h⟩ => by cases same; exact h⟩

theorem run_tryCatch (p : Exec σ ε α) (h : ε → Exec σ ε α) (s : σ) :
    run (tryCatch p h) s =
      match run p s with
      | (.ok a, t) => (.ok a, t)
      | (.error e, t) => run (h e) t := by
  simp only [run, ExceptT.run_tryCatch, StateT.run_bind]
  rcases StateT.run (ExceptT.run p) s with ⟨_ | _, t⟩ <;> rfl

@[simp] theorem run_require_some (a : α) (e : ε) (s : σ) :
    run (require (some a) e : Exec σ ε α) s = (.ok a, s) := rfl

@[simp] theorem run_require_none (e : ε) (s : σ) :
    run (require none e : Exec σ ε α) s = (.error e, s) := rfl

@[simp] theorem run_lift_ok (a : α) (s : σ) :
    run (lift (.ok a) : Exec σ ε α) s = (.ok a, s) := rfl

@[simp] theorem run_lift_error (e : ε) (s : σ) :
    run (lift (.error e) : Exec σ ε α) s = (.error e, s) := rfl

theorem run_lift_eq_ok {value : Except ε α} {s t : σ} {a : α} :
    run (lift value : Exec σ ε α) s = (.ok a, t) ↔ value = .ok a ∧ t = s := by
  cases value with
  | error e => exact iff_of_false (fun h => by cases h) (fun h => by cases h.1)
  | ok b => simp [eq_comm]

theorem run_rollback (p : Exec σ ε α) (undo : σ → σ) (s : σ) :
    run (rollback p undo) s =
      match run p s with
      | (.ok a, t) => (.ok a, t)
      | (.error e, t) => (.error e, undo t) := by
  rw [rollback, run_tryCatch]
  rcases run p s with ⟨_ | _, t⟩
  · simp only [run_bind, run_modify, run_throw]
  · rfl

theorem run_raiseIf_of_not {c : Prop} [Decidable c] (h : ¬c) (e : ε) (s : σ) :
    run (raiseIf c e) s = (.ok (), s) := by
  rw [raiseIf, if_neg h]
  rfl

theorem run_raiseIf_eq_ok {c : Prop} [Decidable c] {e : ε} {s t : σ} {u : Unit} :
    run (raiseIf c e : Exec σ ε Unit) s = (.ok u, t) ↔ ¬c ∧ t = s := by
  unfold raiseIf
  split
  · exact iff_of_false (fun h => by cases h) (fun h => absurd ‹c› h.1)
  · simp [*, eq_comm]

/-- Every outcome of `p` from `s`: `Q` where it returns and `E` where it raises. -/
def Post (p : Exec σ ε α) (Q : α → σ → Prop) (E : ε → σ → Prop) (s : σ) : Prop :=
  match run p s with
  | (.ok a, t) => Q a t
  | (.error e, t) => E e t

section Rules

variable {Q Q' : α → σ → Prop} {E E' : ε → σ → Prop} {s : σ}

theorem Post.of_ok {p : Exec σ ε α} (h : Post p Q E s) {a : α} {t : σ}
    (hrun : run p s = (.ok a, t)) : Q a t := by
  simpa [Post, hrun] using h

theorem Post.of_error {p : Exec σ ε α} (h : Post p Q E s) {e : ε} {t : σ}
    (hrun : run p s = (.error e, t)) : E e t := by
  simpa [Post, hrun] using h

theorem Post.mono {p : Exec σ ε α} (h : Post p Q E s) (hQ : ∀ a t, Q a t → Q' a t)
    (hE : ∀ e t, E e t → E' e t) : Post p Q' E' s := by
  unfold Post at h ⊢
  split at h
  · exact hQ _ _ h
  · exact hE _ _ h

/-- What holds of the last state whether or not the computation raises. -/
theorem post_state {p : Exec σ ε α} {R : σ → Prop} :
    Post p (fun _ => R) (fun _ => R) s ↔ R (run p s).2 := by
  unfold Post
  rcases run p s with ⟨_ | _, t⟩ <;> rfl

/-- What every outcome leaves in the state. -/
theorem Post.leaves {p : Exec σ ε α} {R : σ → Prop} (h : Post p Q E s)
    (returns : ∀ a t, Q a t → R t) (raises : ∀ e t, E e t → R t) : R (run p s).2 :=
  post_state.mp (h.mono returns raises)

/-- A computation that cannot raise returns. -/
theorem Post.returns {p : Exec σ ε α} (h : Post p Q (fun _ _ => False) s) :
    ∃ a t, run p s = (.ok a, t) ∧ Q a t := by
  unfold Post at h
  rcases hrun : run p s with ⟨e | a, t⟩
  · rw [hrun] at h
    exact h.elim
  · rw [hrun] at h
    exact ⟨a, t, rfl, h⟩

@[simp] theorem post_pure (a : α) : Post (pure a) Q E s ↔ Q a s := Iff.rfl

@[simp] theorem post_throw (e : ε) : Post (throw e) Q E s ↔ E e s := Iff.rfl

@[simp] theorem post_get {Q : σ → σ → Prop} : Post (get : Exec σ ε σ) Q E s ↔ Q s s := Iff.rfl

@[simp] theorem post_set (t : σ) {Q : PUnit → σ → Prop} :
    Post (set t : Exec σ ε PUnit) Q E s ↔ Q ⟨⟩ t := Iff.rfl

@[simp] theorem post_modify (f : σ → σ) {Q : PUnit → σ → Prop} :
    Post (modify f : Exec σ ε PUnit) Q E s ↔ Q ⟨⟩ (f s) := Iff.rfl

@[simp] theorem post_bind (p : Exec σ ε α) (f : α → Exec σ ε β) {Q : β → σ → Prop} :
    Post (p >>= f) Q E s ↔ Post p (fun a t => Post (f a) Q E t) E s := by
  unfold Post
  rw [run_bind]
  rcases run p s with ⟨_ | _, t⟩ <;> rfl

/-- What the last part of a computation gives in whatever state it starts. -/
theorem post_bind_of_forall {p : Exec σ ε α} {f : α → Exec σ ε β} {Q : β → σ → Prop}
    (rest : ∀ a t, Post (f a) Q E t) (raises : ∀ e t, E e t) : Post (p >>= f) Q E s := by
  rw [post_bind, Post]
  split
  · exact rest _ _
  · exact raises _ _

@[simp] theorem post_rollback (p : Exec σ ε α) (undo : σ → σ) :
    Post (rollback p undo) Q E s ↔ Post p Q (fun e t => E e (undo t)) s := by
  unfold Post
  rw [run_rollback]
  rcases run p s with ⟨_ | _, t⟩ <;> rfl

@[simp] theorem post_tryCatch (p : Exec σ ε α) (h : ε → Exec σ ε α) :
    Post (tryCatch p h) Q E s ↔ Post p Q (fun e t => Post (h e) Q E t) s := by
  unfold Post
  rw [run_tryCatch]
  rcases run p s with ⟨_ | _, t⟩ <;> rfl

theorem post_require (value : Option α) (e : ε) :
    Post (require value e) Q E s ↔ (∀ a, value = some a → Q a s) ∧ (value = none → E e s) := by
  cases value <;> simp [Post]

theorem post_lift (value : Except ε α) :
    Post (lift value) Q E s ↔
      (∀ a, value = .ok a → Q a s) ∧ (∀ e, value = .error e → E e s) := by
  cases value <;> simp [Post]

@[simp] theorem post_lift_ok (a : α) : Post (lift (.ok a)) Q E s ↔ Q a s := Iff.rfl

@[simp] theorem post_ite (c : Prop) [Decidable c] (p q : Exec σ ε α) :
    Post (if c then p else q) Q E s ↔ (c → Post p Q E s) ∧ (¬c → Post q Q E s) := by
  by_cases h : c <;> simp [h]

@[simp] theorem post_raiseIf (c : Prop) [Decidable c] (e : ε) {Q : Unit → σ → Prop} :
    Post (raiseIf c e) Q E s ↔ (c → E e s) ∧ (¬c → Q () s) :=
  post_ite c _ _

theorem post_map (p : Exec σ ε α) (f : α → β) {Q : β → σ → Prop} :
    Post (f <$> p) Q E s ↔ Post p (fun a t => Q (f a) t) E s := by
  rw [← bind_pure_comp, post_bind]
  rfl

theorem post_discard (p : Exec σ ε α) {Q : PUnit → σ → Prop} :
    Post (discard p) Q E s ↔ Post p (fun _ t => Q ⟨⟩ t) E s := post_map p _

/-- The rule of a loop: `I` speaks of the elements still to come. -/
theorem post_mapM {f : α → Exec σ ε β} {I : List α → σ → Prop} {E : ε → σ → Prop}
    (step : ∀ a rest s, I (a :: rest) s → Post (f a) (fun _ t => I rest t) E s) :
    ∀ (items : List α) (s : σ), I items s →
      Post (items.mapM f) (fun _ t => I [] t) E s := by
  intro items
  induction items with
  | nil => exact fun s h => h
  | cons a rest ih =>
      intro s h
      rw [List.mapM_cons, post_bind]
      refine (step a rest s h).mono (fun b t ht => ?_) (fun _ _ he => he)
      rw [post_bind]
      exact (ih t ht).mono (fun _ _ hr => hr) (fun _ _ he => he)

/-- A loop that returns has made one value of each element. -/
theorem post_mapM_length (f : α → Exec σ ε β) (items : List α) :
    ∀ s : σ, Post (items.mapM f) (fun values _ => values.length = items.length)
      (fun _ _ => True) s := by
  induction items with
  | nil => exact fun s => rfl
  | cons a rest ih =>
      intro s
      rw [List.mapM_cons, post_bind, Post]
      split
      · rename_i b t _
        rw [post_bind]
        refine (ih t).mono (fun values _ length => ?_) (fun _ _ _ => trivial)
        rw [post_pure, List.length_cons, List.length_cons, length]
      · trivial

end Rules

/-- Two facts about every outcome. -/
theorem Post.and {p : Exec σ ε α} {Q Q' : α → σ → Prop} {E E' : ε → σ → Prop} {s : σ}
    (h : Post p Q E s) (h' : Post p Q' E' s) :
    Post p (fun a t => Q a t ∧ Q' a t) (fun e t => E e t ∧ E' e t) s := by
  unfold Post at *
  revert h h'
  rcases run p s with ⟨_ | _, t⟩
  · exact fun h h' => ⟨h, h'⟩
  · exact fun h h' => ⟨h, h'⟩

end Exec

end Cinegraph.Library
