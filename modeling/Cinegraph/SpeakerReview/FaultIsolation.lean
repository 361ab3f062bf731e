import Cinegraph.Library.Blocks
import Cinegraph.SpeakerReview.BatchResults
import Mathlib.Data.List.Forall2
import Mathlib.Data.List.Perm.Subperm

/-!
What one record of a batch output does to the others. The parser cuts the output at every line
boundary of Unicode and reads a bad record once more in its error handler, so a record counts once
only where it is one line, and a line that can be read has to hold an object.
-/

namespace Cinegraph.SpeakerReview

open Library Json

/-- What `json.loads` raises besides a decode error: nesting beyond the stack of the interpreter and
numbers with more digits than it converts. The lines with a surrogate escape that
stands alone belong here too: `json.loads` takes them, and this model does not read them. -/
class ReaderLimits where
  refusal : List Char → Option Raised
  refusal_kind : ∀ line error, refusal line = some error → error.kind ≠ .jsonDecodeError

section Entries

variable [Host]

/-- What one line adds to the results. -/
inductive Entry where
  | verdict (verdict : SpeakerReviewVerdict)
  | error (error : BatchResultError)

def addEntry (parsed : VerdictMap × List BatchResultError) :
    Entry → VerdictMap × List BatchResultError
  | .verdict verdict => (addVerdict parsed.1 verdict, parsed.2)
  | .error error => (parsed.1, parsed.2 ++ [error])

def Entry.verdictFor (candidateId : String) : Entry → Option SpeakerReviewVerdict
  | .verdict given => if given.candidateId = candidateId then some given else none
  | .error _ => none

def Entry.error? : Entry → Option BatchResultError
  | .verdict _ => none
  | .error raised => some raised

/-- The results of a run whose lines gave these entries. -/
def outcome (entries : List Entry) : VerdictMap × List BatchResultError :=
  let parsed := entries.foldl addEntry (Dict.empty, [])
  (parsed.1.mapValues sortByPass, parsed.2)

/-- One verdict and no error, or one error and no verdict. -/
def OneEntry (parsed : VerdictMap × List BatchResultError) : Prop :=
  (∃ verdict, parsed.1.entries = [(verdict.candidateId, [verdict])] ∧ parsed.2 = []) ∨
    ∃ error, parsed.1.entries = [] ∧ parsed.2 = [error]

/-- What can be read is an object, and what cannot fails to decode. -/
def Readable (outcome : Except Raised Json) : Prop :=
  match outcome with
  | .ok value => isObject value = true
  | .error error => error.kind = .jsonDecodeError

/-- What the entries leave: the errors in their order, and the verdicts of each candidate. -/
theorem foldl_addEntry (entries : List Entry) (parsed : VerdictMap × List BatchResultError) :
    (entries.foldl addEntry parsed).2 = parsed.2 ++ entries.filterMap Entry.error? ∧
      ∀ candidateId, verdictsOf (entries.foldl addEntry parsed).1 candidateId =
        verdictsOf parsed.1 candidateId ++ entries.filterMap (Entry.verdictFor candidateId) := by
  induction entries generalizing parsed with
  | nil =>
      exact ⟨(List.append_nil _).symm, fun _ => (List.append_nil _).symm⟩
  | cons entry entries ih =>
      obtain ⟨errors, verdicts⟩ := ih (addEntry parsed entry)
      rw [List.foldl_cons, errors]
      cases entry with
      | error raised =>
          exact ⟨List.append_assoc _ _ _, fun candidateId => verdicts candidateId⟩
      | verdict given =>
          refine ⟨rfl, fun candidateId => ?_⟩
          rw [verdicts, addEntry, addVerdict, verdictsOf, Dict.get?_set]
          by_cases own : candidateId = given.candidateId
          · subst own
            have first : Entry.verdictFor given.candidateId (.verdict given) = some given :=
              if_pos rfl
            rw [if_pos rfl, Option.getD_some, List.append_assoc, List.singleton_append,
              List.filterMap_cons_some first]
          · have other : Entry.verdictFor candidateId (.verdict given) = none :=
              if_neg fun same => own same.symm
            rw [if_neg own, List.filterMap_cons_none other]
            rfl

theorem outcome_errors (entries : List Entry) :
    (outcome entries).2 = entries.filterMap Entry.error? :=
  (foldl_addEntry entries (Dict.empty, [])).1

theorem outcome_verdicts (entries : List Entry) (candidateId : String) :
    (verdictsOf (outcome entries).1 candidateId).Perm
      (entries.filterMap (Entry.verdictFor candidateId)) := by
  have collected := (foldl_addEntry entries (Dict.empty, [])).2 candidateId
  rw [show verdictsOf (Dict.empty : VerdictMap) candidateId = [] from rfl, List.nil_append] at collected
  rw [← collected, outcome, verdictsOf, verdictsOf, Dict.get?_mapValues]
  cases ((entries.foldl addEntry (Dict.empty, [])).1).get? candidateId with
  | none => exact List.Perm.refl _
  | some items => exact List.perm_insertionSort _ _

theorem oneEntry_outcome (entry : Entry) : OneEntry (outcome [entry]) := by
  cases entry with
  | verdict given => exact Or.inl ⟨given, rfl, rfl⟩
  | error raised => exact Or.inr ⟨raised, rfl, rfl⟩

/-- A run that leaves one entry had one line. -/
theorem length_of_oneEntry {entries : List Entry} (one : OneEntry (outcome entries)) :
    entries.length = 1 := by
  have errors := outcome_errors entries
  rcases one with ⟨verdict, filed, none_raised⟩ | ⟨raised, none_filed, one_raised⟩
  · have only : (outcome entries).1 = ⟨[(verdict.candidateId, [verdict])], List.nodup_singleton _⟩ :=
      Dict.ext filed
    have every : ∀ entry ∈ entries, (Entry.verdictFor verdict.candidateId entry).isSome = true := by
      intro entry member
      cases entry with
      | error other =>
          have inside : other ∈ entries.filterMap Entry.error? :=
            List.mem_filterMap.mpr ⟨_, member, rfl⟩
          rw [← errors, none_raised] at inside
          exact absurd inside List.not_mem_nil
      | verdict given =>
          have inside : given ∈ verdictsOf (outcome entries).1 given.candidateId :=
            (outcome_verdicts entries given.candidateId).mem_iff.mpr
              (List.mem_filterMap.mpr ⟨_, member, if_pos rfl⟩)
          have same : given.candidateId = verdict.candidateId := by
            by_contra other
            rw [only, verdictsOf, Dict.get?, assoc, if_neg other] at inside
            exact absurd inside List.not_mem_nil
          rw [Entry.verdictFor, if_pos same]
          rfl
    have counted := (outcome_verdicts entries verdict.candidateId).length_eq
    rw [List.filterMap_length_eq_length.mpr every, only, verdictsOf, Dict.get?, assoc, if_pos rfl]
      at counted
    exact counted.symm
  · have only : (outcome entries).1 = Dict.empty := Dict.ext none_filed
    have every : ∀ entry ∈ entries, entry.error?.isSome = true := by
      intro entry member
      cases entry with
      | error other => rfl
      | verdict given =>
          have inside : given ∈ verdictsOf (outcome entries).1 given.candidateId :=
            (outcome_verdicts entries given.candidateId).mem_iff.mpr
              (List.mem_filterMap.mpr ⟨_, member, if_pos rfl⟩)
          rw [only] at inside
          exact absurd inside List.not_mem_nil
    rw [← List.filterMap_length_eq_length.mpr every, ← errors, one_raised]
    rfl

end Entries

/-- Newline-terminated records. -/
def recordsText (records : List (List Char)) : List Char := records.flatMap (· ++ ['\n'])

theorem filledLines_recordsText (records : List (List Char)) :
    filledLines (recordsText records) = records.flatMap filledLines := by
  induction records with
  | nil => rfl
  | cons record records ih =>
      rw [recordsText, List.flatMap_cons, List.flatMap_cons, List.append_assoc,
        List.singleton_append, filledLines_append, ← recordsText, ih]

/-- A loop over items that succeeds gives one result an item. -/
theorem forall₂_of_mapM {α β : Type} {f : α → Except Raised β} {items : List α} {results : List β}
    (run : items.mapM f = .ok results) :
    List.Forall₂ (fun item result => f item = .ok result) items results := by
  induction items generalizing results with
  | nil =>
      cases run
      exact .nil
  | cons item items ih =>
      rw [List.mapM_cons] at run
      obtain ⟨first, here, run⟩ := (bind_eq_ok _).mp run
      obtain ⟨rest, later, run⟩ := (bind_eq_ok _).mp run
      cases run
      exact .cons here (ih later)

section Results

variable [Host] [ReaderLimits]

/-- `json.loads(raw_line)` -/
def readLine (line : List Char) : Except Raised Json :=
  match ReaderLimits.refusal line with
  | some error => .error error
  | none => loadLine line

/-- The custom id that the handler of a bad line finds when it reads the line again. -/
def handlerCustomId (line : List Char) : Except Raised String :=
  match readLine line with
  | .error error => if error.kind = .jsonDecodeError then .ok "unknown" else .error error
  | .ok value => do
      let items ← orRaise (objectItems value)
        ⟨.attributeError, "object has no attribute 'get'"⟩
      return strOf ((items.lookup "custom_id").getD (.str "unknown"))

variable (validate : StructuredReader) (candidates : CandidateMap)
  (configuration : SpeakerReviewConfiguration)

/-- One turn of the loop over the lines. -/
def parseRecordLine (parsed : VerdictMap × List BatchResultError) (line : List Char) :
    Except Raised (VerdictMap × List BatchResultError) :=
  match readLine line >>= fun result => parseResultLine validate result candidates configuration with
  | .ok verdict => .ok (addVerdict parsed.1 verdict, parsed.2)
  | .error error => do
      let customId ← handlerCustomId line
      return (parsed.1, parsed.2 ++ [⟨customId, error⟩])

/-- `parse_batch_results` under an interpreter with limits. -/
def parseBatchOutput (outputJsonl : List Char) :
    Except Raised (VerdictMap × List BatchResultError) := do
  let (verdicts, errors) ← (filledLines outputJsonl).foldlM
    (parseRecordLine validate candidates configuration) (Dict.empty, [])
  return (verdicts.mapValues sortByPass, errors)

/-- Where the interpreter reads every line, the limits change nothing. -/
theorem parseBatchOutput_eq {outputJsonl : List Char}
    (read : ∀ line ∈ filledLines outputJsonl, ReaderLimits.refusal line = none) :
    parseBatchOutput validate candidates configuration outputJsonl =
      parseBatchResults validate outputJsonl candidates configuration := by
  have same (parsed : VerdictMap × List BatchResultError) {line : List Char}
      (member : line ∈ filledLines outputJsonl) :
      parseRecordLine validate candidates configuration parsed line =
        parseOutputLine validate candidates configuration parsed line := by
    have loaded : readLine line = loadLine line := by
      rw [readLine, read line member]
    have custom : handlerCustomId line = errorCustomId line := by
      rw [handlerCustomId, errorCustomId, loaded]
      unfold loadLine
      split <;> rename_i found <;> split at found <;> cases found <;> rfl
    rw [parseRecordLine, loaded, custom]
    rfl
  have folds (lines : List (List Char)) (inside : ∀ line ∈ lines, line ∈ filledLines outputJsonl)
      (parsed : VerdictMap × List BatchResultError) :
      lines.foldlM (parseRecordLine validate candidates configuration) parsed =
        lines.foldlM (parseOutputLine validate candidates configuration) parsed := by
    induction lines generalizing parsed with
    | nil => rfl
    | cons line lines ih =>
        obtain ⟨here, later⟩ := List.forall_mem_cons.mp inside
        rw [List.foldlM_cons, List.foldlM_cons, same parsed here]
        exact congrArg _ (funext fun next => ih later next)
  rw [parseBatchOutput, parseBatchResults, folds _ fun _ member => member]

/-- The verdicts of a candidate that a text with one record gives. -/
def verdictsFrom (candidateId : String) (record : List Char) : List SpeakerReviewVerdict :=
  match parseBatchOutput validate candidates configuration (recordsText [record]) with
  | .ok (verdicts, _) => verdictsOf verdicts candidateId
  | .error _ => []

def errorsFrom (record : List Char) : List BatchResultError :=
  match parseBatchOutput validate candidates configuration (recordsText [record]) with
  | .ok (_, errors) => errors
  | .error _ => []

/-- No record is lost or doubled, and whatever records stand beside it and in which order, each
gives what it gives alone. -/
structure FaultsIsolated (records : List (List Char)) : Prop where
  once : ∀ record ∈ records, isFilled record = true → ∃ parsed,
    parseBatchOutput validate candidates configuration (recordsText [record]) = .ok parsed ∧
      OneEntry parsed
  apart : ∀ others : List (List Char), others.Subperm records → ∃ verdicts errors,
    parseBatchOutput validate candidates configuration (recordsText others) =
        .ok (verdicts, errors) ∧
      (∀ candidateId, (verdictsOf verdicts candidateId).Perm
        (others.flatMap (verdictsFrom validate candidates configuration candidateId))) ∧
      errors.Perm (others.flatMap (errorsFrom validate candidates configuration))

/-- A record without content, or with one line of it that is an object or no JSON at all. -/
def OneLine (record : List Char) : Prop :=
  filledLines record = [] ∨ ∃ line, filledLines record = [line] ∧ Readable (readLine line)

def lineEntry (line : List Char) : Except Raised Entry :=
  match readLine line >>= fun result => parseResultLine validate result candidates configuration with
  | .ok verdict => .ok (.verdict verdict)
  | .error error => do
      let customId ← handlerCustomId line
      return .error ⟨customId, error⟩

variable {validate candidates configuration}

theorem parseRecordLine_eq (parsed : VerdictMap × List BatchResultError) (line : List Char) :
    parseRecordLine validate candidates configuration parsed line =
      addEntry parsed <$> lineEntry validate candidates configuration line := by
  rw [parseRecordLine, lineEntry]
  cases readLine line >>= fun result => parseResultLine validate result candidates configuration with
  | ok verdict => rfl
  | error error => cases handlerCustomId line <;> rfl

theorem foldlM_parseRecordLine (lines : List (List Char))
    (parsed : VerdictMap × List BatchResultError) :
    lines.foldlM (parseRecordLine validate candidates configuration) parsed =
      (fun entries => entries.foldl addEntry parsed) <$>
        lines.mapM (lineEntry validate candidates configuration) := by
  induction lines generalizing parsed with
  | nil => rfl
  | cons line lines ih =>
      rw [List.foldlM_cons, List.mapM_cons, parseRecordLine_eq]
      cases lineEntry validate candidates configuration line with
      | error error => rfl
      | ok entry =>
          rw [ok_map, ok_bind, ok_bind, ih]
          cases lines.mapM (lineEntry validate candidates configuration) <;> rfl

theorem parseBatchOutput_entries (text : List Char) :
    parseBatchOutput validate candidates configuration text =
      outcome <$> (filledLines text).mapM (lineEntry validate candidates configuration) := by
  rw [parseBatchOutput, foldlM_parseRecordLine]
  cases (filledLines text).mapM (lineEntry validate candidates configuration) <;> rfl

/-- A line has an entry exactly when it is readable. -/
theorem lineEntry_ok (validate : StructuredReader) (candidates : CandidateMap)
    (configuration : SpeakerReviewConfiguration) (line : List Char) :
    (∃ entry, lineEntry validate candidates configuration line = .ok entry) ↔
      Readable (readLine line) := by
  unfold lineEntry handlerCustomId Readable
  cases readLine line with
  | error error =>
      by_cases decode : error.kind = .jsonDecodeError
      · refine iff_of_true ⟨.error ⟨"unknown", error⟩, ?_⟩ decode
        simp only [if_pos decode]
        rfl
      · refine iff_of_false ?_ decode
        rintro ⟨entry, found⟩
        simp only [if_neg decode] at found
        cases found
  | ok value =>
      rw [ok_bind]
      cases parsed : parseResultLine validate value candidates configuration with
      | ok verdict =>
          refine iff_of_true ⟨.verdict verdict, rfl⟩ ?_
          cases value with
          | obj items => rfl
          | _ => cases parsed
      | error error =>
          cases value with
          | obj items => exact iff_of_true ⟨_, rfl⟩ rfl
          | _ => exact iff_of_false (fun found => by cases found.choose_spec) Bool.noConfusion

/-- The entries of a record, none where it raises. -/
def recordEntries (validate : StructuredReader) (candidates : CandidateMap)
    (configuration : SpeakerReviewConfiguration) (record : List Char) : List Entry :=
  ((filledLines record).mapM (lineEntry validate candidates configuration)).toOption.getD []

theorem mapM_record {record : List Char} (oneLine : OneLine record) :
    (filledLines record).mapM (lineEntry validate candidates configuration) =
      .ok (recordEntries validate candidates configuration record) := by
  rw [recordEntries]
  rcases oneLine with blank | ⟨line, one, readable⟩
  · rw [blank]
    rfl
  · obtain ⟨entry, found⟩ := (lineEntry_ok validate candidates configuration line).mpr readable
    rw [one, List.mapM_cons, found]
    rfl

theorem mapM_records {records : List (List Char)} (each : ∀ record ∈ records, OneLine record) :
    (records.flatMap filledLines).mapM (lineEntry validate candidates configuration) =
      .ok (records.flatMap (recordEntries validate candidates configuration)) := by
  induction records with
  | nil => rfl
  | cons record records ih =>
      obtain ⟨here, later⟩ := List.forall_mem_cons.mp each
      rw [List.flatMap_cons, List.flatMap_cons, List.mapM_append, mapM_record here, ok_bind,
        ih later]
      rfl

/-- The results of records that are one line each. -/
theorem parse_records (validate : StructuredReader) (candidates : CandidateMap)
    (configuration : SpeakerReviewConfiguration) {records : List (List Char)}
    (each : ∀ record ∈ records, OneLine record) :
    parseBatchOutput validate candidates configuration (recordsText records) =
      .ok (outcome (records.flatMap (recordEntries validate candidates configuration))) := by
  rw [parseBatchOutput_entries, filledLines_recordsText, mapM_records each]
  rfl

theorem parse_record {record : List Char} (oneLine : OneLine record) :
    parseBatchOutput validate candidates configuration (recordsText [record]) =
      .ok (outcome (recordEntries validate candidates configuration record)) := by
  have alone := parse_records validate candidates configuration
    (List.forall_mem_singleton.mpr oneLine)
  rwa [List.flatMap_singleton] at alone

end Results

section Isolation

variable [Host] [ReaderLimits] (validate : StructuredReader) (candidates : CandidateMap)
  (configuration : SpeakerReviewConfiguration)

theorem faultsIsolated_of_oneLine {records : List (List Char)}
    (each : ∀ record ∈ records, OneLine record) :
    FaultsIsolated validate candidates configuration records where
  once record member filled := by
    rcases each record member with blank | ⟨line, one, readable⟩
    · rw [filledLines_eq_nil.mp blank] at filled
      cases filled
    · obtain ⟨entry, found⟩ := (lineEntry_ok validate candidates configuration line).mpr readable
      refine ⟨outcome [entry], ?_, oneEntry_outcome entry⟩
      rw [parseBatchOutput_entries, filledLines_recordsText, List.flatMap_singleton, one,
        List.mapM_cons, found]
      rfl
  apart others inside := by
    have every : ∀ record ∈ others, OneLine record := fun record member =>
      each record (inside.subset member)
    refine ⟨(outcome (others.flatMap (recordEntries validate candidates configuration))).1,
      (outcome (others.flatMap (recordEntries validate candidates configuration))).2,
      parse_records validate candidates configuration every, fun candidateId => ?_, ?_⟩
    · refine (outcome_verdicts _ candidateId).trans ?_
      rw [List.filterMap_flatMap]
      refine List.Perm.flatMap_left _ fun record member => ?_
      rw [verdictsFrom, parse_record (every record member)]
      exact (outcome_verdicts _ candidateId).symm
    · rw [outcome_errors, List.filterMap_flatMap]
      refine List.Perm.flatMap_left _ fun record member => ?_
      rw [errorsFrom, parse_record (every record member), ← outcome_errors]

theorem oneLine_of_faultsIsolated {records : List (List Char)}
    (isolated : FaultsIsolated validate candidates configuration records) :
    ∀ record ∈ records, OneLine record := by
  intro record member
  cases filled : isFilled record with
  | false => exact Or.inl (filledLines_eq_nil.mpr filled)
  | true =>
      obtain ⟨parsed, found, one⟩ := isolated.once record member filled
      rw [parseBatchOutput_entries, filledLines_recordsText, List.flatMap_singleton] at found
      cases entered : (filledLines record).mapM (lineEntry validate candidates configuration) with
      | error error =>
          rw [entered] at found
          cases found
      | ok entries =>
          rw [entered] at found
          cases found
          have paired := forall₂_of_mapM entered
          obtain ⟨entry, only⟩ := List.length_eq_one_iff.mp (length_of_oneEntry one)
          rw [only, List.forall₂_cons_right_iff] at paired
          obtain ⟨line, rest, entry_found, none_left, one_line⟩ := paired
          rw [List.forall₂_nil_right_iff.mp none_left] at one_line
          exact Or.inr ⟨line, one_line, (lineEntry_ok _ _ _ line).mp ⟨entry, entry_found⟩⟩

end Isolation

section Array

open Sample

/-- An interpreter without limits. -/
@[reducible] def unlimited : ReaderLimits := ⟨fun _ => none, fun _ _ none_refused => by cases none_refused⟩

attribute [local instance] unlimited

end Array

end Cinegraph.SpeakerReview
