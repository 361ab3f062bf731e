import Cinegraph.Library.Dict

/-!
Loops that collect a dictionary: each item is skipped or read as a key with its value, and a key
that is there already is refused. What such a loop collects does not depend on the order, nor on
the items it skips.
-/

namespace Cinegraph.Library

variable {ι κ ν ε : Type*} [DecidableEq κ]

/-- A turn skips its item, or enters what is read of it under a new key. -/
structure Collects (read : ι → Option (Option (κ × ν)))
    (step : Dict κ ν → ι → Except ε (Dict κ ν)) : Prop where
  step_ok : ∀ {d item e}, step d item = .ok e ↔ (read item = some none ∧ e = d) ∨
    ∃ k v, read item = some (some (k, v)) ∧ k ∉ d.keys ∧ e = d.set k v

/-- What is read of a list of items. -/
def readings (read : ι → Option (Option (κ × ν))) (items : List ι) : List (κ × ν) :=
  items.filterMap fun item => (read item).join

variable {read : ι → Option (Option (κ × ν))} {step : Dict κ ν → ι → Except ε (Dict κ ν)}

omit [DecidableEq κ] in
theorem readings_append (items others : List ι) :
    readings read (items ++ others) = readings read items ++ readings read others :=
  List.filterMap_append

omit [DecidableEq κ] in
theorem readings_skipped {item : ι} {items : List ι} (skipped : read item = some none) :
    readings read (item :: items) = readings read items :=
  List.filterMap_cons_none (by rw [skipped]; rfl)

omit [DecidableEq κ] in
theorem readings_entered {item : ι} {items : List ι} {k : κ} {v : ν}
    (entered : read item = some (some (k, v))) :
    readings read (item :: items) = (k, v) :: readings read items :=
  List.filterMap_cons_some (by rw [entered]; rfl)

section Located

variable {α : Type*} (locate : ι → Except ε (Option (κ × α))) (value : κ → α → Except ε ν)
  (enter : Dict κ ν → κ → α → Except ε (Dict κ ν))

omit [DecidableEq κ] in
/-- What is read of an item that is located first, and skipped where it is nowhere. -/
def readLocated (item : ι) : Option (Option (κ × ν)) :=
  match locate item with
  | .error _ => none
  | .ok none => some none
  | .ok (some (k, x)) => (value k x).toOption.map fun v => some (k, v)

def enterLocated (d : Dict κ ν) (item : ι) : Except ε (Dict κ ν) :=
  match locate item with
  | .error e => .error e
  | .ok none => .ok d
  | .ok (some (k, x)) => enter d k x

variable {locate value enter}

/-- It is enough that an item which is located is entered with its value. -/
theorem collects_located (enters : ∀ {d k x e}, enter d k x = .ok e ↔
      ∃ v, value k x = .ok v ∧ k ∉ d.keys ∧ e = d.set k v) :
    Collects (readLocated locate value) (enterLocated locate enter) where
  step_ok {d item e} := by
    unfold readLocated enterLocated
    cases locate item with
    | error error => simp
    | ok located =>
        cases located with
        | none => simp [eq_comm]
        | some entry =>
            obtain ⟨k, x⟩ := entry
            cases given : value k x with
            | error error => simp [enters, given, Except.toOption]
            | ok v => simp [enters, given, Except.toOption]

omit [DecidableEq κ] in
theorem readLocated_eq_some_none {item : ι} :
    readLocated locate value item = some none ↔ locate item = .ok none := by
  unfold readLocated
  cases locate item with
  | error error => simp
  | ok located => cases located <;> simp

end Located

/-- A loop that comes to its end has read every item, and has entered the readings. -/
theorem Collects.loop_ok (collects : Collects read step) {items : List ι} {d e : Dict κ ν} :
    items.foldlM step d = .ok e ↔
      (∀ item ∈ items, (read item).isSome) ∧ e.entries = d.entries ++ readings read items := by
  induction items generalizing d with
  | nil =>
      rw [List.foldlM_nil]
      constructor
      · intro same
        cases same
        exact ⟨fun item member => absurd member List.not_mem_nil, (List.append_nil _).symm⟩
      · rintro ⟨-, same⟩
        rw [readings, List.filterMap_nil, List.append_nil] at same
        have equal : e = d := by
          cases e
          cases d
          cases same
          rfl
        rw [equal]
        rfl
  | cons item rest ih =>
      rw [List.foldlM_cons, List.forall_mem_cons]
      constructor
      · intro ran
        cases one : step d item with
        | error error =>
            rw [one] at ran
            cases ran
        | ok next =>
            rw [one] at ran
            obtain ⟨all, entries⟩ := ih.mp ran
            rcases collects.step_ok.mp one with ⟨skipped, rfl⟩ | ⟨k, v, entered, fresh, rfl⟩
            · exact ⟨⟨by rw [skipped]; rfl, all⟩, by rw [readings_skipped skipped]; exact entries⟩
            · refine ⟨⟨by rw [entered]; rfl, all⟩, ?_⟩
              rw [readings_entered entered, entries,
                Dict.entries_set_of_get?_none v ((d.get?_eq_none_iff k).mpr fresh), List.append_assoc]
              rfl
      · rintro ⟨⟨some_read, all⟩, entries⟩
        obtain ⟨reading, found⟩ := Option.isSome_iff_exists.mp some_read
        cases reading with
        | none =>
            rw [collects.step_ok.mpr (Or.inl ⟨found, rfl⟩)]
            refine ih.mpr ⟨all, entries.trans ?_⟩
            rw [readings_skipped found]
        | some entry =>
            obtain ⟨k, v⟩ := entry
            rw [readings_entered found] at entries
            have fresh : k ∉ d.keys := by
              have once := e.nodup_keys
              rw [Dict.keys, entries, List.map_append, List.nodup_append] at once
              exact fun there => once.2.2 k there k List.mem_cons_self rfl
            rw [collects.step_ok.mpr (Or.inr ⟨k, v, found, fresh, rfl⟩)]
            refine ih.mpr ⟨all, ?_⟩
            rw [Dict.entries_set_of_get?_none v ((d.get?_eq_none_iff k).mpr fresh),
              List.append_assoc]
            exact entries

/-- A loop whose items can be read, with keys that differ, comes to its end. -/
theorem Collects.loop_total (collects : Collects read step) {items : List ι} {d : Dict κ ν}
    (all : ∀ item ∈ items, (read item).isSome)
    (once : ((d.entries ++ readings read items).map Prod.fst).Nodup) :
    ∃ e, items.foldlM step d = .ok e :=
  ⟨⟨d.entries ++ readings read items, once⟩, collects.loop_ok.mpr ⟨all, rfl⟩⟩

theorem Dict.get?_eq_of_perm {d e : Dict κ ν} (perm : d.entries.Perm e.entries) (k : κ) :
    d.get? k = e.get? k := by
  refine Option.ext fun v => ?_
  rw [← d.mem_entries_iff, ← e.mem_entries_iff]
  exact perm.mem_iff

omit [DecidableEq κ] in
/-- The items that are skipped add nothing, wherever they stand. -/
theorem readings_perm {items others : List ι} {kept : ι → Bool}
    (skipped : ∀ item, kept item = false → read item = some none)
    (perm : (items.filter kept).Perm (others.filter kept)) :
    (readings read items).Perm (readings read others) := by
  have thinned (items : List ι) : readings read (items.filter kept) = readings read items := by
    induction items with
    | nil => rfl
    | cons item rest ih =>
        cases keep : kept item with
        | true =>
            rw [List.filter_cons_of_pos keep, readings, List.filterMap_cons, readings,
              List.filterMap_cons]
            rw [readings, readings] at ih
            rw [ih]
        | false =>
            rw [List.filter_cons_of_neg (by rw [keep]; exact Bool.false_ne_true), ih,
              readings_skipped (skipped item keep)]
  rw [← thinned items, ← thinned others]
  exact perm.filterMap _

omit [DecidableEq κ] in
theorem all_read_of_perm {items others : List ι} {kept : ι → Bool}
    (skipped : ∀ item, kept item = false → read item = some none)
    (perm : (items.filter kept).Perm (others.filter kept))
    (all : ∀ item ∈ items, (read item).isSome) : ∀ item ∈ others, (read item).isSome := by
  intro item member
  cases keep : kept item with
  | true =>
      have there := perm.mem_iff.mpr (List.mem_filter.mpr ⟨member, keep⟩)
      exact all item (List.mem_filter.mp there).1
  | false => rw [skipped item keep]; rfl

/-- What a loop collects depends on neither the order nor what it skips. -/
theorem Collects.loop_perm (collects : Collects read step) {items others : List ι} {d : Dict κ ν}
    {kept : ι → Bool} (skipped : ∀ item, kept item = false → read item = some none)
    (perm : (items.filter kept).Perm (others.filter kept)) (ran : items.foldlM step .empty = .ok d) :
    ∃ e, others.foldlM step .empty = .ok e ∧ e.entries.Perm d.entries := by
  obtain ⟨all, entries⟩ := collects.loop_ok.mp ran
  have same : (readings read others).Perm d.entries := by
    rw [entries]
    exact readings_perm skipped perm.symm
  have once : (((Dict.empty : Dict κ ν).entries ++ readings read others).map Prod.fst).Nodup :=
    (same.map Prod.fst).nodup_iff.mpr d.nodup
  obtain ⟨e, ran_others⟩ := collects.loop_total (all_read_of_perm skipped perm all) once
  refine ⟨e, ran_others, ?_⟩
  rw [(collects.loop_ok.mp ran_others).2]
  exact same

end Cinegraph.Library
