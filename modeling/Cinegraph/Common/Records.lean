import Cinegraph.Common.Errors
import Cinegraph.Library.Json
import Mathlib.Data.List.Forall2

/-!
The JSON objects that records are written as, and the parts their readers share.
-/

namespace Cinegraph

open Library

abbrev JsonPayload := List (String × Json)

def valueAt (items : JsonPayload) (key : String) : Except Raised Json :=
  match items.lookup key with
  | some value => .ok value
  | none => .error ⟨.keyError, key⟩

/-- Raise where there is no value. -/
def orRaise {α : Type} (value : Option α) (error : Raised) : Except Raised α :=
  match value with
  | some a => .ok a
  | none => .error error

@[simp] theorem orRaise_eq_ok {α : Type} {value : Option α} {error : Raised} {a : α} :
    orRaise value error = .ok a ↔ value = some a := by
  cases value <;> simp [orRaise]

/-- The items of an object. -/
def objectItems : Json → Option JsonPayload
  | .obj items => some items
  | _ => none

/-- `enum_type(item)`: the member with the given value. -/
def enumOf {α : Type} (members : List α) (value : α → String) : Json → Except Raised α
  | .str text =>
      match members.find? (fun member => value member = text) with
      | some member => .ok member
      | none => .error (valueError text)
  | _ => .error (valueError "unknown member")

theorem enumOf_ok {α : Type} {members : List α} {value : α → String} {text : String} {a : α}
    (h : enumOf members value (.str text) = .ok a) : value a = text := by
  simp only [enumOf] at h
  split at h
  · cases h
    have found := List.find?_some ‹_›
    exact of_decide_eq_true found
  · cases h

def nullableJson {α : Type} (write : α → Json) : Option α → Json
  | some a => write a
  | none => .null

theorem nullableJson_none {α : Type} (write : α → Json) : nullableJson write none = .null := rfl

theorem nullableJson_some {α : Type} (write : α → Json) (a : α) :
    nullableJson write (some a) = write a := rfl

/-- Reading back a list written element by element. -/
theorem mapM_map_ok {α β : Type} {write : α → β} {read : β → Except Raised α} (items : List α)
    (inverse : ∀ a ∈ items, read (write a) = .ok a) : (items.map write).mapM read = .ok items := by
  induction items with
  | nil => rfl
  | cons a rest ih =>
      have tail := ih fun b member => inverse b (List.mem_cons_of_mem _ member)
      simp only [List.map_cons, List.mapM_cons, inverse a List.mem_cons_self, tail]
      rfl

/-- What every turn of a loop keeps holds behind the loop. -/
theorem foldlM_preserves {σ α : Type} {step : σ → α → Except Raised σ} (P : σ → Prop)
    {items : List α} (keeps : ∀ s t, ∀ a ∈ items, P s → step s a = .ok t → P t) {first last : σ}
    (start : P first) (run : items.foldlM step first = .ok last) : P last := by
  induction items generalizing first with
  | nil =>
      cases run
      exact start
  | cons a items ih =>
      rw [List.foldlM_cons, bind_eq_ok] at run
      obtain ⟨next, one, run⟩ := run
      exact ih (fun s t b member => keeps s t b (List.mem_cons_of_mem _ member))
        (keeps first next a List.mem_cons_self start one) run

/-- A loop whose every turn succeeds comes to its end. -/
theorem foldlM_total {σ α : Type} {step : σ → α → Except Raised σ} {items : List α}
    (total : ∀ s, ∀ a ∈ items, ∃ t, step s a = .ok t) (first : σ) :
    ∃ last, items.foldlM step first = .ok last := by
  induction items generalizing first with
  | nil => exact ⟨first, rfl⟩
  | cons a items ih =>
      obtain ⟨next, one⟩ := total first a List.mem_cons_self
      rw [List.foldlM_cons, one, ok_bind]
      exact ih (fun s b member => total s b (List.mem_cons_of_mem _ member)) next

/-- A loop comes to its end where each turn succeeds in the state that the turns before it leave. -/
theorem foldlM_total_iff {σ α : Type} {step : σ → α → Except Raised σ} {items : List α}
    {first : σ} : (∃ last, items.foldlM step first = .ok last) ↔ ∀ before item after,
      items = before ++ item :: after → ∀ state, before.foldlM step first = .ok state →
        ∃ next, step state item = .ok next := by
  induction items generalizing first with
  | nil =>
      refine iff_of_true ⟨first, rfl⟩ fun before item after same => ?_
      cases before <;> cases same
  | cons head rest ih =>
      simp only [List.foldlM_cons, bind_eq_ok]
      constructor
      · rintro ⟨last, next, one, later⟩ before item after same state ran
        cases before with
        | nil =>
            obtain ⟨rfl, rfl⟩ := List.cons.inj same
            cases ran
            exact ⟨next, one⟩
        | cons other before =>
            obtain ⟨rfl, tail⟩ := List.cons.inj same
            rw [List.foldlM_cons, one] at ran
            exact ih.mp ⟨last, later⟩ before item after tail state ran
      · intro each
        obtain ⟨next, one⟩ := each [] head rest rfl first rfl
        have later := ih.mpr fun before item after same state ran =>
          each (head :: before) item after (by rw [same]; rfl) state
            (by rw [List.foldlM_cons, one]; exact ran)
        obtain ⟨last, later⟩ := later
        exact ⟨last, next, one, later⟩

/-- A loop that comes to its end has taken a turn for each item. -/
theorem exists_turn {σ α : Type} {step : σ → α → Except Raised σ} {items : List α}
    {first last : σ} (run : items.foldlM step first = .ok last) {a : α} (member : a ∈ items) :
    ∃ s t, step s a = .ok t := by
  induction items generalizing first with
  | nil => cases member
  | cons b items ih =>
      rw [List.foldlM_cons, bind_eq_ok] at run
      obtain ⟨next, one, run⟩ := run
      rcases List.mem_cons.mp member with rfl | later
      · exact ⟨first, next, one⟩
      · exact ih run later

/-- The results of a loop stand beside its items. -/
theorem forall₂_of_mapM {α β : Type} {f : α → Except Raised β} {items : List α} {values : List β}
    (read : items.mapM f = .ok values) : List.Forall₂ (fun a b => f a = .ok b) items values := by
  induction items generalizing values with
  | nil =>
      cases read
      exact .nil
  | cons a items ih =>
      rw [List.mapM_cons, bind_eq_ok] at read
      obtain ⟨b, first, read⟩ := read
      rw [bind_eq_ok] at read
      obtain ⟨bs, rest, read⟩ := read
      cases read
      exact .cons first (ih rest)

/-- A loop whose every item has a result comes to its end. -/
theorem mapM_total {α β : Type} {f : α → Except Raised β} {items : List α}
    (each : ∀ a ∈ items, ∃ b, f a = .ok b) : ∃ values, items.mapM f = .ok values := by
  induction items with
  | nil => exact ⟨[], rfl⟩
  | cons a items ih =>
      obtain ⟨b, first⟩ := each a List.mem_cons_self
      obtain ⟨values, rest⟩ := ih fun c member => each c (List.mem_cons_of_mem _ member)
      exact ⟨b :: values, by rw [List.mapM_cons, first, ok_bind, rest]; rfl⟩

/-- What stands on the right has something beside it. -/
theorem exists_left_of_forall₂ {α β : Type} {R : α → β → Prop} {items : List α} {values : List β}
    (beside : List.Forall₂ R items values) {b : β} (member : b ∈ values) : ∃ a ∈ items, R a b := by
  induction beside with
  | nil => cases member
  | cons here _ ih =>
      rcases List.mem_cons.mp member with rfl | later
      · exact ⟨_, List.mem_cons_self, here⟩
      · obtain ⟨a, inside, there⟩ := ih later
        exact ⟨a, List.mem_cons_of_mem _ inside, there⟩

theorem exists_right_of_forall₂ {α β : Type} {R : α → β → Prop} {items : List α} {values : List β}
    (beside : List.Forall₂ R items values) {a : α} (member : a ∈ items) : ∃ b ∈ values, R a b :=
  exists_left_of_forall₂ beside.flip member

theorem exists_of_mem_mapM {α β : Type} {f : α → Except Raised β} {items : List α}
    {values : List β} (read : items.mapM f = .ok values) {b : β} (member : b ∈ values) :
    ∃ a ∈ items, f a = .ok b :=
  exists_left_of_forall₂ (forall₂_of_mapM read) member

theorem exists_mem_of_mapM {α β : Type} {f : α → Except Raised β} {items : List α}
    {values : List β} (read : items.mapM f = .ok values) {a : α} (member : a ∈ items) :
    ∃ b ∈ values, f a = .ok b :=
  exists_right_of_forall₂ (forall₂_of_mapM read) member

/-- What the results say of themselves, where their items say the same. -/
theorem map_of_mapM {α β γ : Type} {f : α → Except Raised β} {g : β → γ} {h : α → γ}
    {items : List α} {values : List β} (read : items.mapM f = .ok values)
    (agree : ∀ a ∈ items, ∀ b, f a = .ok b → g b = h a) : values.map g = items.map h := by
  have beside := forall₂_of_mapM read
  clear read
  induction beside with
  | nil => rfl
  | cons made _ ih =>
      rw [List.map_cons, List.map_cons, agree _ List.mem_cons_self _ made,
        ih fun a member => agree a (List.mem_cons_of_mem _ member)]

theorem length_of_mapM {α β : Type} {f : α → Except Raised β} {items : List α} {values : List β}
    (read : items.mapM f = .ok values) : items.length = values.length :=
  (forall₂_of_mapM read).length_eq

end Cinegraph
