import Cinegraph.SpeakerReview.PrivateIo

/-!
What the private artifacts promise while no write-once call is interrupted
between its exclusive create and its last byte: every artifact is complete, a
write-once call returns exactly when the stored content is its own, and a call
that died can be repeated.
-/

namespace Cinegraph.SpeakerReview

open Library

/-- The file a stage is about to fill or rename. -/
def Stage.file? : Stage → Option FileName
  | .writing file _ | .replacing file => some file
  | _ => none

namespace RunDirectory

section Invariant

variable (writeOnce : String → Bool) (maxBytes : Nat)

/-- The process has created its write-once file and not yet filled it. -/
def MidWrite (s : RunDirectory) (process : Nat) : Prop :=
  ∃ call file written, s.process process = some (call, .writing file written) ∧
    writeOnce call.locator = true ∧ written < call.content.length

/-- A call brings a content within the limit of an artifact. -/
def WithinLimit (a : WriteAction) : Prop :=
  ∀ process call, a = .start process call → call.content.length ≤ maxBytes

/-- While a write-once file is being filled, only its writer acts and it does not die. -/
def Undisturbed (s : RunDirectory) (a : WriteAction) : Prop :=
  (∀ process, MidWrite writeOnce s process → ∃ choice, a = .advance process choice) ∧
    WithinLimit maxBytes a

/-- The artifact has its final content: no write to it is under way. -/
structure Settled (s : RunDirectory) (locator : String) (content : Bytes) : Prop where
  stored : s.files (.artifact locator) = some content
  idle : ∀ process call written,
    s.process process = some (call, .writing (.artifact locator) written) →
      written = call.content.length

def Owns (call : WriteCall) (file : FileName) : Prop :=
  if writeOnce call.locator then file = .artifact call.locator
  else ∃ suffix, file = .temporary call.locator suffix

def ComparingFits (s : RunDirectory) (call : WriteCall) : Snapshot → Prop
  | .lstat => ∃ stored, Settled s call.locator stored
  | .opening size | .reading size =>
      size ≤ maxBytes ∧ ∃ stored, Settled s call.locator stored ∧ stored.length = size
  | .confirming size content => Settled s call.locator content ∧ content.length = size

/-- What a call at a stage may rely on. -/
def Fits (s : RunDirectory) (call : WriteCall) : Stage → Prop
  | .looking | .creating => True
  | .comparing snapshot =>
      writeOnce call.locator = true ∧ ComparingFits maxBytes s call snapshot
  | .writing file written =>
      Owns writeOnce call file ∧ written ≤ call.content.length ∧
        s.files file = some (call.content.take written)
  | .replacing file =>
      writeOnce call.locator = false ∧ Owns writeOnce call file ∧
        s.files file = some call.content
  | .syncing => writeOnce call.locator = true → Settled s call.locator call.content

/-- A call on a path that is over: it returned exactly when the stored content is
its own, and otherwise raised the conflict and changed nothing. -/
def Settles (s : RunDirectory) (f : FinishedCall) : Prop :=
  if writeOnce f.call.locator then
    ∃ stored, Settled s f.call.locator stored ∧
      (f.outcome = .returned ∧ stored = f.call.content ∨
        f.outcome = .conflict ∧ stored ≠ f.call.content ∧ f.changed = false)
  else f.outcome = .returned

structure Invariant (s : RunDirectory) : Prop where
  fits : ∀ process call stage, s.process process = some (call, stage) →
    call ∈ s.calls ∧ Fits writeOnce maxBytes s call stage
  distinct : ∀ process other call call' stage stage' file,
    s.process process = some (call, stage) → s.process other = some (call', stage') →
    stage.file? = some file → stage'.file? = some file → process = other
  complete : ∀ locator content, s.files (.artifact locator) = some content →
    (∃ call ∈ s.calls, call.locator = locator ∧ call.content = content) ∨
      ∃ process call file written, s.process process = some (call, .writing file written) ∧
        call.locator = locator ∧ writeOnce locator = true ∧ written < call.content.length
  finished : ∀ f ∈ s.finished, Settles writeOnce s f
  died : ∀ call ∈ s.died, call ∈ s.calls
  small : ∀ call ∈ s.calls, call.content.length ≤ maxBytes

end Invariant

section Frame

variable {writeOnce : String → Bool} {maxBytes : Nat} {s t : RunDirectory} {actor : Nat}

/-- The part of a step that concerns everything but the acting process. -/
structure Moved (writeOnce : String → Bool) (s t : RunDirectory) (actor : Nat) : Prop where
  others : ∀ process, process ≠ actor → t.process process = s.process process
  calls : ∀ call ∈ s.calls, call ∈ t.calls
  settled : ∀ locator content, writeOnce locator = true → Settled s locator content →
    Settled t locator content
  held : ∀ process call stage file, process ≠ actor → s.process process = some (call, stage) →
    stage.file? = some file → t.files file = s.files file

theorem ComparingFits.moved (m : Moved writeOnce s t actor) {call : WriteCall}
    {snapshot : Snapshot} (once : writeOnce call.locator = true)
    (h : ComparingFits maxBytes s call snapshot) : ComparingFits maxBytes t call snapshot := by
  cases snapshot with
  | lstat =>
      obtain ⟨stored, settled⟩ := h
      exact ⟨stored, m.settled _ _ once settled⟩
  | opening size | reading size =>
      obtain ⟨bounded, stored, settled, same⟩ := h
      exact ⟨bounded, stored, m.settled _ _ once settled, same⟩
  | confirming size content => exact ⟨m.settled _ _ once h.1, h.2⟩

/-- What a call relies on is left alone by the steps of the others. -/
theorem Fits.moved (m : Moved writeOnce s t actor) {process : Nat} {call : WriteCall}
    {stage : Stage} (other : process ≠ actor) (at_stage : s.process process = some (call, stage))
    (h : Fits writeOnce maxBytes s call stage) : Fits writeOnce maxBytes t call stage := by
  cases stage with
  | looking | creating => trivial
  | comparing snapshot => exact ⟨h.1, h.2.moved m h.1⟩
  | writing file written =>
      refine ⟨h.1, h.2.1, ?_⟩
      rw [m.held process call _ file other at_stage rfl]
      exact h.2.2
  | replacing file =>
      refine ⟨h.1, h.2.1, ?_⟩
      rw [m.held process call _ file other at_stage rfl]
      exact h.2.2
  | syncing => exact fun once => m.settled _ _ once (h once)

theorem Settles.moved (m : Moved writeOnce s t actor) {f : FinishedCall}
    (h : Settles writeOnce s f) : Settles writeOnce t f := by
  unfold Settles at h ⊢
  by_cases once : writeOnce f.call.locator
  · rw [if_pos once] at h ⊢
    obtain ⟨stored, settled, outcome⟩ := h
    exact ⟨stored, m.settled _ _ once settled, outcome⟩
  · rwa [if_neg once] at h ⊢

/-- What remains to be shown of a step: the stage, the files and the outcome of the
acting process. -/
structure Acted (writeOnce : String → Bool) (maxBytes : Nat) (s t : RunDirectory) (actor : Nat) :
    Prop where
  fits : ∀ call stage, t.process actor = some (call, stage) →
    call ∈ t.calls ∧ Fits writeOnce maxBytes t call stage
  distinct : ∀ other call call' stage stage' file, other ≠ actor →
    t.process actor = some (call, stage) → s.process other = some (call', stage') →
    stage.file? = some file → stage'.file? ≠ some file
  complete : ∀ locator content, t.files (.artifact locator) = some content →
    (s.files (.artifact locator) = some content ∧ ¬MidWrite writeOnce s actor) ∨
    (∃ call ∈ t.calls, call.locator = locator ∧ call.content = content) ∨
      ∃ process call file written, t.process process = some (call, .writing file written) ∧
        call.locator = locator ∧ writeOnce locator = true ∧ written < call.content.length
  finished : ∀ f ∈ t.finished, f ∈ s.finished ∨ Settles writeOnce t f
  died : ∀ call ∈ t.died, call ∈ t.calls
  small : ∀ call ∈ t.calls, call.content.length ≤ maxBytes

theorem Invariant.preserved (h : Invariant writeOnce maxBytes s) (m : Moved writeOnce s t actor)
    (acted : Acted writeOnce maxBytes s t actor) : Invariant writeOnce maxBytes t := by
  constructor
  · intro process call stage at_stage
    by_cases own : process = actor
    · subst own
      exact acted.fits call stage at_stage
    · rw [m.others process own] at at_stage
      obtain ⟨called, fits⟩ := h.fits process call stage at_stage
      exact ⟨m.calls call called, fits.moved m own at_stage⟩
  · intro process other call call' stage stage' file at_stage at_stage' holds holds'
    by_contra different
    by_cases own : process = actor
    · subst own
      have unmoved := m.others other (Ne.symm different)
      rw [unmoved] at at_stage'
      exact acted.distinct other call call' stage stage' file (Ne.symm different) at_stage
        at_stage' holds holds'
    · by_cases own' : other = actor
      · subst own'
        rw [m.others process own] at at_stage
        exact acted.distinct process call' call stage' stage file own at_stage' at_stage holds'
          holds
      · rw [m.others process own] at at_stage
        rw [m.others other own'] at at_stage'
        exact different
          (h.distinct process other call call' stage stage' file at_stage at_stage' holds holds')
  · intro locator content stored
    rcases acted.complete locator content stored with ⟨before, quiet⟩ | after
    · rcases h.complete locator content before with ⟨call, called, fields⟩ | writer
      · exact Or.inl ⟨call, m.calls call called, fields⟩
      · obtain ⟨process, call, file, written, at_stage, rfl, once, unfinished⟩ := writer
        have own : process ≠ actor := by
          rintro rfl
          exact quiet ⟨call, file, written, at_stage, once, unfinished⟩
        exact Or.inr ⟨process, call, file, written, (m.others process own).trans at_stage, rfl,
          once, unfinished⟩
    · exact after
  · intro f ended
    rcases acted.finished f ended with before | settles
    · exact (h.finished f before).moved m
    · exact settles
  · exact acted.died
  · exact acted.small

theorem Settled.frame {locator : String} {content : Bytes} (h : Settled s locator content)
    (files : t.files (.artifact locator) = s.files (.artifact locator))
    (others : ∀ process, process ≠ actor → t.process process = s.process process)
    (own : ∀ call written, t.process actor = some (call, .writing (.artifact locator) written) →
      written = call.content.length) : Settled t locator content := by
  constructor
  · rw [files]
    exact h.stored
  · intro process call written at_stage
    by_cases acting : process = actor
    · subst acting
      exact own call written at_stage
    · rw [others process acting] at at_stage
      exact h.idle process call written at_stage

/-- A step that leaves all files alone and does not enter a write. -/
theorem Moved.of_files (files : t.files = s.files)
    (others : ∀ process, process ≠ actor → t.process process = s.process process)
    (calls : ∀ call ∈ s.calls, call ∈ t.calls)
    (own : ∀ call file written, t.process actor ≠ some (call, .writing file written)) :
    Moved writeOnce s t actor := by
  refine ⟨others, calls, ?_, ?_⟩
  · intro locator content _ settled
    exact settled.frame (by rw [files]) others fun call written at_stage =>
      absurd at_stage (own call _ written)
  · intro process call stage file _ _ _
    rw [files]

/-- No write-once file is being filled when someone else acts. -/
theorem quiet_of_undisturbed {a : WriteAction} (undisturbed : Undisturbed writeOnce maxBytes s a)
    (own : ¬MidWrite writeOnce s a.actor) (process : Nat) : ¬MidWrite writeOnce s process := by
  intro mid
  obtain ⟨choice, rfl⟩ := undisturbed.1 process mid
  exact own mid

theorem not_midWrite {call : WriteCall} {stage : Stage}
    (at_stage : s.process actor = some (call, stage))
    (other : ∀ file written, stage ≠ .writing file written) : ¬MidWrite writeOnce s actor := by
  rintro ⟨_, file, written, mid, -⟩
  rw [at_stage] at mid
  cases mid
  exact other file written rfl

/-- A stored write-once file is settled while nobody is filling one. -/
theorem Invariant.settled_of_quiet (h : Invariant writeOnce maxBytes s)
    (quiet : ∀ process, ¬MidWrite writeOnce s process) {locator : String} {content : Bytes}
    (stored : s.files (.artifact locator) = some content) :
    Settled s locator content := by
  refine ⟨stored, fun process call written at_stage => ?_⟩
  obtain ⟨-, owns, bounded, -⟩ := h.fits process call _ at_stage
  have own : writeOnce call.locator = true := by
    unfold Owns at owns
    split at owns
    · assumption
    · obtain ⟨suffix, other⟩ := owns
      cases other
  have finished : ¬written < call.content.length := fun unfinished =>
    quiet process ⟨call, _, written, at_stage, own, unfinished⟩
  omega

end Frame

section Steps

variable {writeOnce : String → Bool} {maxBytes : Nat} {s t : RunDirectory} {actor : Nat}

@[simp] theorem setStage_files (call : WriteCall) (stage : Stage) :
    (s.setStage actor call stage).files = s.files := rfl

@[simp] theorem setStage_process_self (call : WriteCall) (stage : Stage) :
    (s.setStage actor call stage).process actor = some (call, stage) :=
  Function.update_self ..

theorem setStage_process_of_ne (call : WriteCall) (stage : Stage) {process : Nat}
    (other : process ≠ actor) : (s.setStage actor call stage).process process = s.process process :=
  Function.update_of_ne other ..

@[simp] theorem finish_files (call : WriteCall) (outcome : WriteOutcome) (changed : Bool) :
    (s.finish actor call outcome changed).files = s.files := rfl

@[simp] theorem finish_process_self (call : WriteCall) (outcome : WriteOutcome) (changed : Bool) :
    (s.finish actor call outcome changed).process actor = none :=
  Function.update_self ..

theorem finish_process_of_ne (call : WriteCall) (outcome : WriteOutcome) (changed : Bool)
    {process : Nat} (other : process ≠ actor) :
    (s.finish actor call outcome changed).process process = s.process process :=
  Function.update_of_ne other ..

/-- A call moves to a stage that holds no file. -/
theorem Invariant.setStage (h : Invariant writeOnce maxBytes s) {call : WriteCall} {prior stage : Stage}
    (at_stage : s.process actor = some (call, prior)) (quiet : ¬MidWrite writeOnce s actor)
    (holds : ∀ file written, stage ≠ .writing file written)
    (held : ∀ file, stage.file? = some file → prior.file? = some file)
    (fits : Fits writeOnce maxBytes s call stage) :
    Invariant writeOnce maxBytes (s.setStage actor call stage) := by
  have moved : Moved writeOnce s (s.setStage actor call stage) actor := by
    refine .of_files rfl (fun process => setStage_process_of_ne call stage) (fun _ called => called) ?_
    intro other file written
    rw [setStage_process_self]
    rintro ⟨⟩
    exact holds file written rfl
  refine h.preserved moved ⟨?_, ?_, ?_, fun f ended => Or.inl ended, h.died, h.small⟩
  · intro other entered entering
    rw [setStage_process_self] at entering
    cases entering
    refine ⟨(h.fits actor call prior at_stage).1, ?_⟩
    cases stage with
    | looking | creating => trivial
    | comparing snapshot => exact ⟨fits.1, fits.2.moved moved fits.1⟩
    | writing file written => exact absurd rfl (holds file written)
    | replacing file => exact fits
    | syncing => exact fun once => moved.settled _ _ once (fits once)
  · intro other entered call' stage' prior' file different entering at_other holds' holds''
    rw [setStage_process_self] at entering
    cases entering
    exact different (h.distinct other actor call' call prior' prior file at_other at_stage holds''
      (held file holds'))
  · intro locator content stored
    exact Or.inl ⟨stored, quiet⟩

/-- A call is over. -/
theorem Invariant.finish (h : Invariant writeOnce maxBytes s) {call : WriteCall}
    {outcome : WriteOutcome} {changed : Bool} (quiet : ¬MidWrite writeOnce s actor)
    (settles : Settles writeOnce s ⟨call, outcome, changed⟩) :
    Invariant writeOnce maxBytes (s.finish actor call outcome changed) := by
  have moved : Moved writeOnce s (s.finish actor call outcome changed) actor := by
    refine .of_files rfl (fun process => finish_process_of_ne call outcome changed)
      (fun _ called => called) ?_
    intro other file written
    rw [finish_process_self]
    exact nofun
  refine h.preserved moved ⟨?_, ?_, ?_, ?_, h.died, h.small⟩
  · intro other stage entering
    rw [finish_process_self] at entering
    cases entering
  · intro other entered call' stage stage' file _ entering
    rw [finish_process_self] at entering
    cases entering
  · intro locator content stored
    exact Or.inl ⟨stored, quiet⟩
  · intro f ended
    rcases List.mem_cons.mp ended with rfl | before
    · exact Or.inr (settles.moved moved)
    · exact Or.inl before

theorem Invariant.stored_small (h : Invariant writeOnce maxBytes s)
    (quiet : ∀ process, ¬MidWrite writeOnce s process) {locator : String} {content : Bytes}
    (stored : s.files (.artifact locator) = some content) : content.length ≤ maxBytes := by
  rcases h.complete locator content stored with ⟨call, called, -, rfl⟩ | writer
  · exact h.small call called
  · obtain ⟨process, call, file, written, at_stage, rfl, once, unfinished⟩ := writer
    exact absurd ⟨call, file, written, at_stage, once, unfinished⟩ (quiet process)

/-- The comparison with the stored content: it reads the settled file. -/
theorem compareStep_invariant (h : Invariant writeOnce maxBytes s) {call : WriteCall}
    {snapshot : Snapshot} (quiet : ∀ process, ¬MidWrite writeOnce s process)
    (at_stage : s.process actor = some (call, .comparing snapshot)) :
    Invariant writeOnce maxBytes (compareStep maxBytes s actor call snapshot) := by
  obtain ⟨-, once, fits⟩ := h.fits actor call _ at_stage
  cases snapshot with
  | lstat =>
      obtain ⟨stored, settled⟩ := fits
      have bounded := h.stored_small quiet settled.stored
      simp only [compareStep, settled.stored, if_neg (Nat.not_lt.mpr bounded)]
      exact h.setStage at_stage (quiet actor) nofun nofun ⟨once, bounded, stored, settled, rfl⟩
  | opening size =>
      obtain ⟨bounded, stored, settled, same⟩ := fits
      simp only [compareStep, settled.stored, ne_eq, same, not_true, if_false]
      exact h.setStage at_stage (quiet actor) nofun nofun ⟨once, bounded, stored, settled, same⟩
  | reading size =>
      obtain ⟨bounded, stored, settled, same⟩ := fits
      simp only [compareStep, settled.stored]
      rw [List.take_of_length_le (by omega)]
      exact h.setStage at_stage (quiet actor) nofun nofun ⟨once, settled, same⟩
  | confirming size content =>
      obtain ⟨settled, same⟩ := fits
      simp only [compareStep, settled.stored, same, ne_eq, not_true, or_self, if_false]
      split
      · refine h.finish (quiet actor) ?_
        rw [Settles, if_pos once]
        exact ⟨content, settled, Or.inr ⟨rfl, ‹_›, rfl⟩⟩
      · refine h.finish (quiet actor) ?_
        rw [Settles, if_pos once]
        exact ⟨content, settled, Or.inl ⟨rfl, not_not.mp ‹_›⟩⟩

/-- A call writes to a file that no other call holds. -/
theorem Invariant.write (h : Invariant writeOnce maxBytes s) {call : WriteCall} {prior : Stage}
    (file : FileName) (written : Nat) (at_stage : s.process actor = some (call, prior))
    (owns : Owns writeOnce call file) (bounded : written ≤ call.content.length)
    (free : ∀ process other stage, process ≠ actor → s.process process = some (other, stage) →
      stage.file? ≠ some file)
    (unsettled : ∀ content, writeOnce call.locator = true → ¬Settled s call.locator content) :
    Invariant writeOnce maxBytes
      ((s.setFile file (some (call.content.take written))).setStage actor call
        (.writing file written)) := by
  have files (other : FileName) (different : other ≠ file) :
      ((s.setFile file (some (call.content.take written))).setStage actor call
        (.writing file written)).files other = s.files other :=
    Function.update_of_ne different ..
  have self : ((s.setFile file (some (call.content.take written))).setStage actor call
      (.writing file written)).files file = some (call.content.take written) :=
    Function.update_self ..
  have onlyOnce (locator : String) (same : FileName.artifact locator = file) :
      writeOnce call.locator = true ∧ locator = call.locator := by
    unfold Owns at owns
    split at owns
    · rw [owns] at same
      cases same
      exact ⟨‹_›, rfl⟩
    · obtain ⟨suffix, temporary⟩ := owns
      rw [temporary] at same
      cases same
  have moved : Moved writeOnce s ((s.setFile file (some (call.content.take written))).setStage actor
      call (.writing file written)) actor := by
    refine ⟨fun process acting => setStage_process_of_ne _ _ acting, fun _ called => called, ?_, ?_⟩
    · intro locator content once settled
      have different : FileName.artifact locator ≠ file := by
        intro same
        obtain ⟨own, rfl⟩ := onlyOnce locator same
        exact unsettled content own settled
      refine settled.frame (files _ different)
        (fun process acting => setStage_process_of_ne _ _ acting) ?_
      intro other count entering
      rw [setStage_process_self] at entering
      cases entering
      exact absurd rfl different
    · intro process other stage held different at_other holds
      refine files held ?_
      rintro rfl
      exact free process other stage different at_other holds
  refine h.preserved moved ⟨?_, ?_, ?_, fun f ended => Or.inl ended, h.died, h.small⟩
  · intro other stage entering
    rw [setStage_process_self] at entering
    cases entering
    exact ⟨(h.fits actor call prior at_stage).1, owns, bounded, self⟩
  · intro process other call' stage stage' held different entering at_other holds
    rw [setStage_process_self] at entering
    cases entering
    cases holds
    exact free process call' stage' different at_other
  · intro locator content stored
    by_cases same : FileName.artifact locator = file
    · obtain ⟨once, rfl⟩ := onlyOnce locator same
      rw [same, self] at stored
      cases stored
      by_cases unfinished : written < call.content.length
      · exact Or.inr (Or.inr ⟨actor, call, file, written, setStage_process_self .., rfl, once,
          unfinished⟩)
      · refine Or.inr (Or.inl ⟨call, (h.fits actor call prior at_stage).1, rfl, ?_⟩)
        rw [List.take_of_length_le (by omega)]
    · have before : s.files (.artifact locator) = some content := (files _ same).symm.trans stored
      by_cases mid : MidWrite writeOnce s actor
      · rcases h.complete locator content before with complete | writer
        · exact Or.inr (Or.inl complete)
        · obtain ⟨process, other, held, count, at_other, rfl, once, unfinished⟩ := writer
          have different : process ≠ actor := by
            rintro rfl
            rw [at_other] at at_stage
            cases at_stage
            obtain ⟨-, owned, -⟩ := h.fits process _ _ at_other
            unfold Owns at owns owned
            rw [if_pos once] at owns owned
            exact same owns.symm
          exact Or.inr (Or.inr ⟨process, other, held, count,
            (setStage_process_of_ne _ _ different).trans at_other, rfl, once, unfinished⟩)
      · exact Or.inl ⟨before, mid⟩

theorem createStep_invariant (h : Invariant writeOnce maxBytes s) {call : WriteCall} {choice : Nat}
    (quiet : ∀ process, ¬MidWrite writeOnce s process)
    (at_stage : s.process actor = some (call, .creating))
    (taken : createStep writeOnce s actor choice call = some t) :
    Invariant writeOnce maxBytes t := by
  have unheld (file : FileName) (absent : s.files file = none) (process : Nat) (other : WriteCall)
      (stage : Stage) (at_other : s.process process = some (other, stage)) :
      stage.file? ≠ some file := by
    intro holds
    obtain ⟨-, fits⟩ := h.fits process other stage at_other
    cases stage with
    | looking | comparing | creating | syncing => cases holds
    | writing held written =>
        cases holds
        exact nomatch absent.symm.trans fits.2.2
    | replacing held =>
        cases holds
        exact nomatch absent.symm.trans fits.2.2
  unfold createStep at taken
  split at taken
  · split at taken
    · cases taken
      exact h.setStage at_stage (quiet actor) nofun nofun
        ⟨‹_›, _, h.settled_of_quiet quiet ‹_›⟩
    · cases taken
      have owns : Owns writeOnce call (.artifact call.locator) := by
        rw [Owns, if_pos ‹_›]
      refine h.write _ 0 at_stage owns (Nat.zero_le _) ?_ ?_
      · exact fun process other stage _ => unheld _ ‹_› process other stage
      · intro content _ settled
        have stored := settled.stored
        simp_all
  · split at taken
    · cases taken
    · cases taken
      have owns : Owns writeOnce call (.temporary call.locator choice) := by
        rw [Owns, if_neg ‹_›]
        exact ⟨choice, rfl⟩
      refine h.write _ 0 at_stage owns (Nat.zero_le _) ?_ ?_
      · exact fun process other stage _ => unheld _ ‹_› process other stage
      · exact fun content once _ => absurd once ‹_›

theorem writeStep_invariant (h : Invariant writeOnce maxBytes s) {call : WriteCall} {choice : Nat}
    {file : FileName} {written : Nat}
    (quiet : ∀ process, process ≠ actor → ¬MidWrite writeOnce s process)
    (at_stage : s.process actor = some (call, .writing file written))
    (taken : writeStep writeOnce s actor choice call file written = some t) :
    Invariant writeOnce maxBytes t := by
  obtain ⟨-, owns, bounded, stored⟩ := h.fits actor call _ at_stage
  have unheld (process : Nat) (other : WriteCall) (stage : Stage) (different : process ≠ actor)
      (at_other : s.process process = some (other, stage)) : stage.file? ≠ some file := fun holds =>
    different (h.distinct process actor other call stage _ file at_other at_stage holds rfl)
  simp only [writeStep, stored, Option.getD_some] at taken
  split at taken
  · split at taken
    · cases taken
    · cases taken
      have within : written + choice ≤ call.content.length := by omega
      rw [← List.take_add]
      refine h.write _ _ at_stage owns within unheld ?_
      intro content once settled
      rw [Owns, if_pos once] at owns
      subst owns
      have finished := settled.idle actor call written at_stage
      omega
  · have complete : written = call.content.length := by omega
    have finished : ¬MidWrite writeOnce s actor := by
      rintro ⟨other, held, count, mid, -, unfinished⟩
      rw [at_stage] at mid
      cases mid
      omega
    rw [complete, List.take_length] at taken stored
    split at taken
    · rename_i once
      simp only [ne_eq, not_true, if_false] at taken
      cases taken
      refine h.setStage at_stage finished nofun nofun fun _ => ?_
      have all (process : Nat) : ¬MidWrite writeOnce s process := by
        by_cases own : process = actor
        · rwa [own]
        · exact quiet process own
      rw [Owns, if_pos once] at owns
      exact h.settled_of_quiet all (owns ▸ stored)
    · cases taken
      refine h.setStage at_stage finished nofun (fun _ held => held) ?_
      exact ⟨Bool.eq_false_iff.mpr ‹_›, owns, stored⟩

/-- The rename replaces the artifact by the complete temporary file. -/
theorem replacing_invariant (h : Invariant writeOnce maxBytes s) {call : WriteCall}
    {file : FileName} (at_stage : s.process actor = some (call, .replacing file)) :
    Invariant writeOnce maxBytes
      (((s.setFile (.artifact call.locator) (s.files file)).setFile file none).setStage actor call
        .syncing) := by
  obtain ⟨called, replaces, owns, filled⟩ := h.fits actor call _ at_stage
  rw [Owns, replaces] at owns
  obtain ⟨suffix, rfl⟩ := owns
  rw [filled]
  generalize ht : ((s.setFile (.artifact call.locator) (some call.content)).setFile
    (.temporary call.locator suffix) none).setStage actor call .syncing = t
  have files (name : FileName) (artifact : name ≠ .artifact call.locator)
      (temporary : name ≠ .temporary call.locator suffix) : t.files name = s.files name := by
    rw [← ht]
    exact (Function.update_of_ne temporary ..).trans (Function.update_of_ne artifact ..)
  have stored : t.files (.artifact call.locator) = some call.content := by
    rw [← ht]
    simp [setFile]
  have others (process : Nat) (different : process ≠ actor) :
      t.process process = s.process process := by
    rw [← ht]
    exact setStage_process_of_ne _ _ different
  have entered : t.process actor = some (call, .syncing) := by
    rw [← ht]
    exact setStage_process_self ..
  have calls : t.calls = s.calls := by
    rw [← ht]
    rfl
  have moved : Moved writeOnce s t actor := by
    refine ⟨others, fun other member => calls ▸ member, ?_, ?_⟩
    · intro locator content once settled
      have different : FileName.artifact locator ≠ .artifact call.locator := by
        rintro ⟨⟩
        rw [replaces] at once
        cases once
      refine settled.frame (files _ different (by simp)) others ?_
      intro other written entering
      rw [entered] at entering
      cases entering
    · intro process other stage held different at_other holds
      refine files held ?_ ?_
      · rintro rfl
        obtain ⟨-, fits⟩ := h.fits process other stage at_other
        have owned : Owns writeOnce other (.artifact call.locator) := by
          cases stage with
          | looking | comparing | creating | syncing => cases holds
          | writing name written => cases holds; exact fits.1
          | replacing name => cases holds; exact fits.2.1
        unfold Owns at owned
        split at owned
        · injection owned with same
          simp_all
        · obtain ⟨_, temporary⟩ := owned
          cases temporary
      · rintro rfl
        exact different (h.distinct process actor other call stage _ _ at_other at_stage holds rfl)
  refine h.preserved moved ⟨?_, ?_, ?_, ?_, ?_, ?_⟩
  · intro other stage entering
    rw [entered] at entering
    cases entering
    refine ⟨calls ▸ called, fun once => ?_⟩
    rw [replaces] at once
    cases once
  · intro process other call' stage stage' name _ entering at_other holds
    rw [entered] at entering
    cases entering
    cases holds
  · intro locator content now
    by_cases same : locator = call.locator
    · subst same
      rw [stored] at now
      cases now
      exact Or.inr (Or.inl ⟨call, calls ▸ called, rfl, rfl⟩)
    · have unmoved := files (.artifact locator) (by simpa using same) (by simp)
      refine Or.inl ⟨unmoved.symm.trans now, ?_⟩
      exact not_midWrite at_stage nofun
  · intro f ended
    rw [← ht] at ended
    exact Or.inl ended
  · rw [calls, ← ht]
    exact h.died
  · rw [calls]
    exact h.small

theorem advanceStep_invariant (h : Invariant writeOnce maxBytes s) {call : WriteCall}
    {stage : Stage} {choice : Nat}
    (undisturbed : Undisturbed writeOnce maxBytes s (.advance actor choice))
    (at_stage : s.process actor = some (call, stage))
    (taken : advanceStep writeOnce maxBytes s actor choice call stage = some t) :
    Invariant writeOnce maxBytes t := by
  have quiet (other : ∀ file written, stage ≠ .writing file written) (process : Nat) :
      ¬MidWrite writeOnce s process :=
    quiet_of_undisturbed undisturbed (not_midWrite at_stage other) process
  cases stage with
  | looking =>
      have quiet := quiet nofun
      simp only [advanceStep] at taken
      split at taken
      · rename_i found
        obtain ⟨stored, hstored⟩ := Option.isSome_iff_exists.mp found.2
        cases taken
        exact h.setStage at_stage (quiet actor) nofun nofun
          ⟨found.1, stored, h.settled_of_quiet quiet hstored⟩
      · cases taken
        exact h.setStage at_stage (quiet actor) nofun nofun trivial
  | comparing snapshot =>
      cases taken
      exact compareStep_invariant h (quiet nofun) at_stage
  | creating => exact createStep_invariant h (quiet nofun) at_stage taken
  | writing file written =>
      refine writeStep_invariant h ?_ at_stage taken
      intro process different mid
      obtain ⟨_, same⟩ := undisturbed.1 process mid
      cases same
      exact different rfl
  | replacing file =>
      cases taken
      exact replacing_invariant h at_stage
  | syncing =>
      cases taken
      refine h.finish (quiet nofun actor) ?_
      obtain ⟨-, settled⟩ := h.fits actor call _ at_stage
      unfold Settles
      split
      · exact ⟨call.content, settled ‹_›, Or.inl ⟨rfl, rfl⟩⟩
      · rfl

/-- Every step of an undisturbed run keeps the invariant. -/
theorem step_invariant (h : Invariant writeOnce maxBytes s) {a : WriteAction}
    (undisturbed : Undisturbed writeOnce maxBytes s a)
    (taken : step writeOnce maxBytes s a = some t) : Invariant writeOnce maxBytes t := by
  cases a with
  | start process call =>
      simp only [step] at taken
      cases free : s.process process with
      | some running =>
          rw [free] at taken
          cases taken
      | none =>
          have small := undisturbed.2 process call rfl
          simp only [free, if_neg (Nat.not_lt.mpr small), Option.some.injEq] at taken
          subst taken
          have quiet : ¬MidWrite writeOnce s process := by
            rintro ⟨_, _, _, mid, -⟩
            rw [free] at mid
            cases mid
          have moved : Moved writeOnce s
              ({ s with calls := call :: s.calls }.setStage process call .looking) process := by
            refine .of_files rfl ?_ ?_ ?_
            · exact fun other different => Function.update_of_ne different ..
            · exact fun other member => List.mem_cons_of_mem _ member
            · intro other file written
              rw [setStage_process_self]
              exact nofun
          refine h.preserved moved ⟨?_, ?_, ?_, ?_, ?_, ?_⟩
          · intro other stage entering
            rw [setStage_process_self] at entering
            cases entering
            exact ⟨List.mem_cons_self, trivial⟩
          · intro other entered call' stage stage' file _ entering _ holds
            rw [setStage_process_self] at entering
            cases entering
            cases holds
          · exact fun locator content stored => Or.inl ⟨stored, quiet⟩
          · exact fun f ended => Or.inl ended
          · exact fun other member => List.mem_cons_of_mem _ (h.died other member)
          · intro other member
            rcases List.mem_cons.mp member with rfl | before
            · exact small
            · exact h.small other before
  | advance process choice =>
      simp only [step] at taken
      split at taken
      · cases taken
      · exact advanceStep_invariant h undisturbed ‹_› taken
  | die process =>
      simp only [step] at taken
      split at taken
      · cases taken
      · rename_i call stage at_stage
        cases taken
        have quiet : ¬MidWrite writeOnce s process := by
          intro mid
          obtain ⟨_, same⟩ := undisturbed.1 process mid
          cases same
        have freed : (Function.update s.process process none) process = none :=
          Function.update_self ..
        have moved : Moved writeOnce s
            { s with process := Function.update s.process process none, died := call :: s.died }
            process := by
          refine .of_files rfl ?_ (fun _ called => called) ?_
          · exact fun other different => Function.update_of_ne different ..
          · intro other file written
            simp only [freed]
            exact nofun
        refine h.preserved moved ⟨?_, ?_, ?_, fun f ended => Or.inl ended, ?_, h.small⟩
        · intro other entered entering
          simp only [freed] at entering
          cases entering
        · intro other entered call' stage' stage'' file _ entering
          simp only [freed] at entering
          cases entering
        · exact fun locator content stored => Or.inl ⟨stored, quiet⟩
        · intro other member
          rcases List.mem_cons.mp member with rfl | before
          · exact (h.fits process _ _ at_stage).1
          · exact h.died other before

theorem Invariant.empty : Invariant writeOnce maxBytes .empty := by
  constructor <;> simp [RunDirectory.empty]

end Steps

section Repeat

variable (writeOnce : String → Bool) (maxBytes : Nat)

/-- The steps of one process while no other acts. -/
def Alone (process : Nat) (_ : RunDirectory) (a : WriteAction) : Prop :=
  a.actor = process ∧ a ≠ .die process

/-- A free process that makes the call and is not disturbed returns with the content
stored, under any fresh name of a temporary file. -/
def Repeatable (s : RunDirectory) (call : WriteCall) : Prop :=
  ∀ process suffix, s.process process = none →
    s.files (.temporary call.locator suffix) = none →
    ∃ t changed, Run (step writeOnce maxBytes) (Alone process) s t ∧
      t.finished = ⟨call, .returned, changed⟩ :: s.finished ∧
      t.files (.artifact call.locator) = some call.content

variable {writeOnce maxBytes} {s t u : RunDirectory} {process : Nat} {call : WriteCall}

theorem alone_start (writeOnce : String → Bool) (free : s.process process = none) (small : call.content.length ≤ maxBytes) :
    Run (step writeOnce maxBytes) (Alone process) s
      ({ s with calls := call :: s.calls }.setStage process call .looking) := by
  refine Run.start.next (a := .start process call) ⟨rfl, nofun⟩ ?_
  simp only [step, free, if_neg (Nat.not_lt.mpr small)]

theorem alone_advance {stage : Stage} (run : Run (step writeOnce maxBytes) (Alone process) s t)
    (at_stage : t.process process = some (call, stage)) (choice : Nat)
    (taken : advanceStep writeOnce maxBytes t process choice call stage = some u) :
    Run (step writeOnce maxBytes) (Alone process) s u := by
  refine run.next (a := .advance process choice) ⟨rfl, nofun⟩ ?_
  simp only [step, at_stage]
  exact taken

/-- A process alone fills the file it has created. -/
theorem alone_write {file : FileName} (run : Run (step writeOnce maxBytes) (Alone process) s t)
    (at_stage : t.process process = some (call, .writing file 0))
    (created : t.files file = some []) :
    ∃ u, Run (step writeOnce maxBytes) (Alone process) s u ∧
      u.process process = some (call, .writing file call.content.length) ∧
      u.files file = some call.content ∧ u.finished = t.finished := by
  by_cases nothing : call.content = []
  · refine ⟨t, run, ?_, ?_, rfl⟩
    · rw [at_stage, nothing]
      rfl
    · rw [created, nothing]
  · have some_bytes : 0 < call.content.length := List.length_pos_iff.mpr nothing
    have whole : ¬(call.content.length = 0 ∨ call.content.length > call.content.length) := by
      omega
    refine ⟨(t.setFile file (some call.content)).setStage process call
      (.writing file call.content.length), alone_advance run at_stage call.content.length ?_,
      setStage_process_self .., Function.update_self .., rfl⟩
    simp only [advanceStep, writeStep, if_pos some_bytes, created, Option.getD_some,
      List.nil_append, List.drop_zero, List.take_length, Nat.zero_add, if_neg whole]

theorem repeatable_absent (once : writeOnce call.locator = true)
    (small : call.content.length ≤ maxBytes) (absent : s.files (.artifact call.locator) = none) :
    Repeatable writeOnce maxBytes s call := by
  intro process suffix free _
  have look (t : RunDirectory) (ht : t.files (.artifact call.locator) = none) :
      advanceStep writeOnce maxBytes t process 0 call .looking =
        some (t.setStage process call .creating) := by
    simp [advanceStep, ht]
  have create (t : RunDirectory) (ht : t.files (.artifact call.locator) = none) :
      advanceStep writeOnce maxBytes t process 0 call .creating =
        some ((t.setFile (.artifact call.locator) (some [])).setStage process call
          (.writing (.artifact call.locator) 0)) := by
    simp [advanceStep, createStep, once, ht]
  have flush (t : RunDirectory) (ht : t.files (.artifact call.locator) = some call.content) :
      advanceStep writeOnce maxBytes t process 0 call
        (.writing (.artifact call.locator) call.content.length) =
          some (t.setStage process call .syncing) := by
    simp [advanceStep, writeStep, once, ht]
  have called := alone_start writeOnce free small
  have looked := alone_advance called (setStage_process_self ..) 0 (look _ absent)
  have created := alone_advance looked (setStage_process_self ..) 0 (create _ absent)
  obtain ⟨t, written, at_stage, stored, finished⟩ :=
    alone_write created (setStage_process_self ..) (Function.update_self ..)
  have flushed := alone_advance written at_stage 0 (flush t stored)
  refine ⟨_, true, alone_advance flushed (setStage_process_self ..) 0 rfl, ?_, stored⟩
  change _ :: t.finished = _
  rw [finished]
  rfl

theorem repeatable_same (once : writeOnce call.locator = true)
    (small : call.content.length ≤ maxBytes)
    (stored : s.files (.artifact call.locator) = some call.content) :
    Repeatable writeOnce maxBytes s call := by
  intro process suffix free _
  have look (t : RunDirectory) (ht : t.files (.artifact call.locator) = some call.content) :
      advanceStep writeOnce maxBytes t process 0 call .looking =
        some (t.setStage process call (.comparing .lstat)) := by
    simp [advanceStep, once, ht]
  have open_ (t : RunDirectory) (ht : t.files (.artifact call.locator) = some call.content) :
      advanceStep writeOnce maxBytes t process 0 call (.comparing .lstat) =
        some (t.setStage process call (.comparing (.opening call.content.length))) := by
    simp [advanceStep, compareStep, ht, Nat.not_lt.mpr small]
  have check (t : RunDirectory) (ht : t.files (.artifact call.locator) = some call.content) :
      advanceStep writeOnce maxBytes t process 0 call
        (.comparing (.opening call.content.length)) =
          some (t.setStage process call (.comparing (.reading call.content.length))) := by
    simp [advanceStep, compareStep, ht]
  have read (t : RunDirectory) (ht : t.files (.artifact call.locator) = some call.content) :
      advanceStep writeOnce maxBytes t process 0 call
        (.comparing (.reading call.content.length)) =
          some (t.setStage process call
            (.comparing (.confirming call.content.length call.content))) := by
    have whole : call.content.length ≤ maxBytes + 1 := by omega
    simp [advanceStep, compareStep, ht, List.take_of_length_le whole]
  have compare (t : RunDirectory) (ht : t.files (.artifact call.locator) = some call.content) :
      advanceStep writeOnce maxBytes t process 0 call
        (.comparing (.confirming call.content.length call.content)) =
          some (t.finish process call .returned false) := by
    simp [advanceStep, compareStep, ht]
  have called := alone_start writeOnce free small
  have looked := alone_advance called (setStage_process_self ..) 0 (look _ stored)
  have opened := alone_advance looked (setStage_process_self ..) 0 (open_ _ stored)
  have checked := alone_advance opened (setStage_process_self ..) 0 (check _ stored)
  have got := alone_advance checked (setStage_process_self ..) 0 (read _ stored)
  exact ⟨_, false, alone_advance got (setStage_process_self ..) 0 (compare _ stored), rfl, stored⟩

theorem repeatable_replace (replaces : writeOnce call.locator = false)
    (small : call.content.length ≤ maxBytes) : Repeatable writeOnce maxBytes s call := by
  intro process suffix free fresh
  have look (t : RunDirectory) : advanceStep writeOnce maxBytes t process 0 call .looking =
      some (t.setStage process call .creating) := by
    simp [advanceStep, replaces]
  have create (t : RunDirectory) (ht : t.files (.temporary call.locator suffix) = none) :
      advanceStep writeOnce maxBytes t process suffix call .creating =
        some ((t.setFile (.temporary call.locator suffix) (some [])).setStage process call
          (.writing (.temporary call.locator suffix) 0)) := by
    simp [advanceStep, createStep, replaces, ht]
  have flush (t : RunDirectory) : advanceStep writeOnce maxBytes t process 0 call
      (.writing (.temporary call.locator suffix) call.content.length) =
        some (t.setStage process call (.replacing (.temporary call.locator suffix))) := by
    simp [advanceStep, writeStep, replaces]
  have called := alone_start writeOnce free small
  have looked := alone_advance called (setStage_process_self ..) 0 (look _)
  have created := alone_advance looked (setStage_process_self ..) suffix (create _ fresh)
  obtain ⟨t, written, at_stage, stored, finished⟩ :=
    alone_write created (setStage_process_self ..) (Function.update_self ..)
  have flushed := alone_advance written at_stage 0 (flush t)
  have renamed := alone_advance flushed (setStage_process_self ..) 0 rfl
  refine ⟨_, true, alone_advance renamed (setStage_process_self ..) 0 rfl, ?_, ?_⟩
  · change _ :: t.finished = _
    rw [finished]
    rfl
  · simp [setFile, stored]

end Repeat

section Atomicity

variable (writeOnce : String → Bool) (maxBytes : Nat)

/-- What the two primitives promise of a directory: no artifact is ever incomplete; a
write-once call that is over has returned exactly when the stored content is its own,
and otherwise has raised the conflict and changed nothing; a call that died can be
repeated, unless another content was stored meanwhile. -/
structure Atomic (s : RunDirectory) : Prop where
  complete : ∀ locator content, s.files (.artifact locator) = some content →
    ∃ call ∈ s.calls, call.locator = locator ∧ call.content = content
  outcome : ∀ f ∈ s.finished,
    if writeOnce f.call.locator then
      ∃ stored, s.files (.artifact f.call.locator) = some stored ∧
        (f.outcome = .returned ∧ stored = f.call.content ∨
          f.outcome = .conflict ∧ stored ≠ f.call.content ∧ f.changed = false)
    else f.outcome = .returned
  repeatable : ∀ call ∈ s.died, Repeatable writeOnce maxBytes s call ∨
    writeOnce call.locator = true ∧
      ∃ stored, s.files (.artifact call.locator) = some stored ∧ stored ≠ call.content

variable {writeOnce maxBytes} {s : RunDirectory}

theorem Invariant.atomic (h : Invariant writeOnce maxBytes s)
    (quiet : ∀ process, ¬MidWrite writeOnce s process) : Atomic writeOnce maxBytes s := by
  constructor
  · intro locator content stored
    rcases h.complete locator content stored with complete | writer
    · exact complete
    · obtain ⟨process, call, file, written, at_stage, rfl, once, unfinished⟩ := writer
      exact absurd ⟨call, file, written, at_stage, once, unfinished⟩ (quiet process)
  · intro f ended
    have settles := h.finished f ended
    unfold Settles at settles
    by_cases once : writeOnce f.call.locator = true
    · rw [if_pos once] at settles ⊢
      obtain ⟨stored, settled, outcome⟩ := settles
      exact ⟨stored, settled.stored, outcome⟩
    · rwa [if_neg once] at settles ⊢
  · intro call member
    have small := h.small call (h.died call member)
    cases once : writeOnce call.locator with
    | false => exact Or.inl (repeatable_replace once small)
    | true =>
        cases stored : s.files (.artifact call.locator) with
        | none => exact Or.inl (repeatable_absent once small stored)
        | some content =>
            by_cases same : content = call.content
            · exact Or.inl (repeatable_same once small (same ▸ stored))
            · exact Or.inr ⟨rfl, content, rfl, same⟩

/-- A step that creates a write-once file creates an empty artifact. -/
def FillsNothing (writeOnce : String → Bool) (s : RunDirectory) (a : WriteAction) : Prop :=
  ∀ process choice call, a = .advance process choice →
    s.process process = some (call, .creating) → writeOnce call.locator = true →
    s.files (.artifact call.locator) = none → call.content = []

/-- Only write-once files without content are being filled. -/
def Blank (writeOnce : String → Bool) (s : RunDirectory) : Prop :=
  ∀ process call file written, s.process process = some (call, .writing file written) →
    writeOnce call.locator = true → call.content = []

theorem Blank.quiet (blank : Blank writeOnce s) (process : Nat) : ¬MidWrite writeOnce s process := by
  rintro ⟨call, file, written, at_stage, once, unfinished⟩
  rw [blank process call file written at_stage once] at unfinished
  exact absurd unfinished (Nat.not_lt_zero _)

theorem Blank.update {t : RunDirectory} {actor : Nat} (blank : Blank writeOnce s)
    (others : ∀ process, process ≠ actor → t.process process = s.process process)
    (own : ∀ call file written, t.process actor = some (call, .writing file written) →
      writeOnce call.locator = true → call.content = []) : Blank writeOnce t := by
  intro process call file written at_stage once
  by_cases acting : process = actor
  · subst acting
    exact own call file written at_stage once
  · rw [others process acting] at at_stage
    exact blank process call file written at_stage once

theorem Blank.setStage {actor : Nat} {t : RunDirectory} {call : WriteCall} {stage : Stage}
    (blank : Blank writeOnce s) (same : t.process = s.process)
    (own : ∀ file written, stage = .writing file written → writeOnce call.locator = true →
      call.content = []) : Blank writeOnce (t.setStage actor call stage) := by
  apply blank.update
  · intro process different
    rw [setStage_process_of_ne _ _ different, same]
  · intro other file written entering once
    rw [setStage_process_self] at entering
    cases entering
    exact own file written rfl once

theorem Blank.finish {actor : Nat} {t : RunDirectory} {call : WriteCall} {outcome : WriteOutcome}
    {changed : Bool} (blank : Blank writeOnce s) (same : t.process = s.process) :
    Blank writeOnce (t.finish actor call outcome changed) := by
  apply blank.update
  · intro process different
    rw [finish_process_of_ne _ _ _ different, same]
  · intro other file written entering
    rw [finish_process_self] at entering
    cases entering

theorem Blank.compareStep {actor : Nat} {call : WriteCall} {snapshot : Snapshot}
    (blank : Blank writeOnce s) :
    Blank writeOnce (compareStep maxBytes s actor call snapshot) := by
  cases snapshot <;> simp only [RunDirectory.compareStep] <;> repeat' split
  all_goals first
    | exact blank.finish rfl
    | exact blank.setStage rfl nofun

theorem Blank.advanceStep {t : RunDirectory} {actor choice : Nat} {call : WriteCall}
    {stage : Stage} (blank : Blank writeOnce s)
    (empty : FillsNothing writeOnce s (.advance actor choice))
    (at_stage : s.process actor = some (call, stage))
    (taken : advanceStep writeOnce maxBytes s actor choice call stage = some t) :
    Blank writeOnce t := by
  cases stage with
  | looking =>
      simp only [RunDirectory.advanceStep] at taken
      split at taken <;> cases taken
      · exact blank.setStage rfl nofun
      · exact blank.setStage rfl nofun
  | comparing snapshot =>
      cases taken
      exact blank.compareStep
  | creating =>
      simp only [RunDirectory.advanceStep, createStep] at taken
      split at taken
      · split at taken <;> cases taken
        · exact blank.setStage rfl nofun
        · exact blank.setStage rfl fun file written _ once => empty actor choice call rfl at_stage once ‹_›
      · split at taken <;> cases taken
        exact blank.setStage rfl fun file written _ once => absurd once ‹_›
  | writing file written =>
      have nothing := blank actor call file written at_stage
      simp only [RunDirectory.advanceStep, writeStep] at taken
      repeat' split at taken
      all_goals cases taken
      · exact blank.setStage rfl fun _ _ _ once => nothing once
      · exact blank.finish rfl
      · exact blank.setStage rfl nofun
      · exact blank.setStage rfl nofun
  | replacing file =>
      cases taken
      exact blank.setStage rfl nofun
  | syncing =>
      cases taken
      exact blank.finish rfl

theorem Blank.step {t : RunDirectory} {a : WriteAction} (blank : Blank writeOnce s)
    (empty : FillsNothing writeOnce s a) (taken : step writeOnce maxBytes s a = some t) :
    Blank writeOnce t := by
  cases a with
  | start process call =>
      simp only [RunDirectory.step] at taken
      repeat' split at taken
      all_goals cases taken
      · exact Blank.finish (s := s) blank rfl
      · exact Blank.setStage (s := s) blank rfl nofun
  | advance process choice =>
      simp only [RunDirectory.step] at taken
      split at taken
      · cases taken
      · exact blank.advanceStep empty ‹_› taken
  | die process =>
      simp only [RunDirectory.step] at taken
      split at taken <;> cases taken
      apply blank.update
      · exact fun other different => Function.update_of_ne different ..
      · intro call file written entering
        simp at entering

/-- A directory is atomic in every state of a run that creates no write-once file with
content. In every run in which nobody else acts, and the writer does not die, while a
write-once file is being filled, it is atomic in every state in which none is. -/
theorem privateFiles_atomic (writeOnce : String → Bool) (maxBytes : Nat) (s : RunDirectory) :
    (Run (step writeOnce maxBytes)
        (fun s a => FillsNothing writeOnce s a ∧ WithinLimit maxBytes a) .empty s →
      Atomic writeOnce maxBytes s) ∧
    (Run (step writeOnce maxBytes) (Undisturbed writeOnce maxBytes) .empty s →
      (∀ process, ¬MidWrite writeOnce s process) → Atomic writeOnce maxBytes s) := by
  constructor
  · intro run
    have both := run.invariant (I := fun s => Invariant writeOnce maxBytes s ∧ Blank writeOnce s)
      ⟨Invariant.empty, nofun⟩ fun _ _ _ h meets taken =>
        ⟨step_invariant h.1 ⟨fun process mid => absurd mid (h.2.quiet process), meets.2⟩ taken,
          h.2.step meets.1 taken⟩
    exact both.1.atomic both.2.quiet
  · intro run quiet
    have invariant := run.invariant (I := Invariant writeOnce maxBytes) Invariant.empty
      fun _ _ _ h undisturbed taken => step_invariant h undisturbed taken
    exact invariant.atomic quiet

/-- One process replaces the run state. -/
def sampleReplace : List WriteAction :=
  [.start 0 ⟨"run-state.json", [1, 2]⟩, .advance 0 0, .advance 0 7, .advance 0 1, .advance 0 1,
    .advance 0 0, .advance 0 0, .advance 0 0]

theorem privateFiles_atomic_replace : ∃ s,
    Run (step (fun _ => false) 8)
      (fun s a => FillsNothing (fun _ => false) s a ∧ WithinLimit 8 a) .empty s ∧
    s.files (.artifact "run-state.json") = some [1, 2] ∧ Atomic (fun _ => false) 8 s := by
  obtain ⟨s, run, stored⟩ := Run.exists_of_checked (step (fun _ => false) 8)
    (fun _ a => a ∈ sampleReplace) .empty sampleReplace
    (fun s => s.files (.artifact "run-state.json") = some [1, 2]) (by decide)
  have meets : Run (step (fun _ => false) 8)
      (fun s a => FillsNothing (fun _ => false) s a ∧ WithinLimit 8 a) .empty s := by
    refine run.mono fun s a member => ⟨nofun, ?_⟩
    rintro process call rfl
    simp only [sampleReplace, List.mem_cons, WriteAction.start.injEq, reduceCtorEq, or_false,
      List.not_mem_nil] at member
    rw [member.2]
    decide
  exact ⟨s, meets, of_decide_eq_true stored, (privateFiles_atomic _ 8 s).1 meets⟩

/-- The writer of a request part dies behind its exclusive create, and the same call is
made again: it raises the conflict with an empty file. -/
def tornWrite : List WriteAction :=
  [.start 0 ⟨"requests.jsonl", [1, 2]⟩, .advance 0 0, .advance 0 0, .die 0,
    .start 1 ⟨"requests.jsonl", [1, 2]⟩, .advance 1 0, .advance 1 0, .advance 1 0, .advance 1 0,
    .advance 1 0]

theorem torn_write_conflicts : ∃ s, tornWrite.foldlM (step (fun _ => true) 8) .empty = some s ∧
    s.finished = [⟨⟨"requests.jsonl", [1, 2]⟩, .conflict, false⟩] ∧
    ¬Atomic (fun _ => true) 8 s := by
  obtain ⟨s, executed, test⟩ := (Option.any_eq_true
    (fun s : RunDirectory => s.files (.artifact "requests.jsonl") = some [] ∧
      s.calls = [⟨"requests.jsonl", [1, 2]⟩, ⟨"requests.jsonl", [1, 2]⟩] ∧
      s.finished = [⟨⟨"requests.jsonl", [1, 2]⟩, .conflict, false⟩])
    (tornWrite.foldlM (step (fun _ => true) 8) .empty)).mp (by decide)
  obtain ⟨stored, calls, finished⟩ := of_decide_eq_true test
  refine ⟨s, executed, finished, fun atomic => ?_⟩
  obtain ⟨call, member, -, complete⟩ := atomic.complete _ _ stored
  simp only [calls, List.mem_cons, List.not_mem_nil, or_false, or_self] at member
  rw [member] at complete
  cases complete

end Atomicity

end RunDirectory

end Cinegraph.SpeakerReview
