import Cinegraph.AgentJobs.Job
import Cinegraph.Retrieval.BoundedWindow

/-!
The query a worker callback builds from the job it has claimed, before the
conversation service is called. The constructor is stricter than that of a job.
-/

namespace Cinegraph

open Library

namespace ConversationErrorMessages

def SERIES_QUERY_SCOPE_REVISION_MUST_BE_TRIMMED : String :=
  "Series conversation scope revision must be trimmed and nonempty."
def SERIES_QUERY_QUESTION_MUST_BE_BOUNDED : String :=
  "Series conversation question must be trimmed and bounded."
def SERIES_QUERY_CANDIDATES_MUST_BE_VALID : String :=
  "Series conversation candidates must be non-empty and valid."
def BINDING_PERMISSION_SCOPE_REVISION_MUST_MATCH_ACCESS_SCOPE : String :=
  "Conversation binding permission revision must match its corpus-access scope."
def SERIES_QUERY_CANDIDATE_LIMIT_EXCEEDED : String :=
  "Series conversation candidate limit exceeded."
def SERIES_QUERY_CANDIDATES_MUST_SHARE_SERIES : String :=
  "Series conversation candidates must belong to one series."

end ConversationErrorMessages

open ConversationErrorMessages

namespace SeriesAgentConfiguration

def questionMaxLength : Nat := 2000
def maxCandidateEpisodes : Nat := 256

end SeriesAgentConfiguration

structure ConversationalSeriesChatQueryFields where
  threadId : UUID
  profileId : UUID
  permissionScopeRevision : String
  question : String
  seriesId : UUID
  candidateEpisodes : List EpisodeRef
  corpusAccessScope : CorpusAccessScope
  profileWatchState : Option ProfileWatchState := none

namespace ConversationalSeriesChatQueryFields

def check (q : ConversationalSeriesChatQueryFields) : Except Raised Unit := do
  reject (q.permissionScopeRevision = "" ∨
    Text.strip q.permissionScopeRevision ≠ q.permissionScopeRevision)
    SERIES_QUERY_SCOPE_REVISION_MUST_BE_TRIMMED .invalidModel
  reject (q.question = "" ∨ Text.strip q.question ≠ q.question ∨
    q.question.length > SeriesAgentConfiguration.questionMaxLength)
    SERIES_QUERY_QUESTION_MUST_BE_BOUNDED .invalidModel
  reject (q.candidateEpisodes = []) SERIES_QUERY_CANDIDATES_MUST_BE_VALID .invalidModel
  reject (q.permissionScopeRevision ≠ q.corpusAccessScope.revision)
    BINDING_PERMISSION_SCOPE_REVISION_MUST_MATCH_ACCESS_SCOPE .invalidModel
  reject (q.candidateEpisodes.length > SeriesAgentConfiguration.maxCandidateEpisodes)
    SERIES_QUERY_CANDIDATE_LIMIT_EXCEEDED .invalidModel
  reject ((∃ item ∈ q.candidateEpisodes, item.seriesId ≠ q.seriesId) ∨
    ¬(q.candidateEpisodes.map EpisodeRef.episodeId).Nodup)
    SERIES_QUERY_CANDIDATES_MUST_SHARE_SERIES .invalidModel

end ConversationalSeriesChatQueryFields

structure ConversationalSeriesChatQuery extends ConversationalSeriesChatQueryFields where
  valid : toConversationalSeriesChatQueryFields.check = .ok ()

namespace ConversationalSeriesChatQuery

def make (fields : ConversationalSeriesChatQueryFields) :
    Except Raised ConversationalSeriesChatQuery :=
  construct ConversationalSeriesChatQueryFields.check ConversationalSeriesChatQuery.mk fields

theorem make_isOk {fields : ConversationalSeriesChatQueryFields} :
    (∃ query, make fields = .ok query) ↔ fields.check = .ok () := by
  constructor
  · rintro ⟨query, made⟩
    exact (construct_eq_ok.mp made).1
  · intro valid
    exact ⟨⟨fields, valid⟩, construct_of_check valid⟩

end ConversationalSeriesChatQuery

variable [Normalization]

/-- `_job_watch_state`. -/
def jobWatchState (job : AgentJob) : Except Raised ProfileWatchState :=
  buildBoundedWatchState job.ownerProfileId "API session" job.seriesId job.candidateEpisodes
    job.spoilerMode job.safeThroughEpisodeId

/-- The query `execute` builds for a claimed job. -/
def conversationQuery (job : AgentJob) : Except Raised ConversationalSeriesChatQuery := do
  let watchState ← jobWatchState job
  ConversationalSeriesChatQuery.make {
    threadId := job.threadId
    profileId := job.ownerProfileId
    permissionScopeRevision := job.permissionScopeRevision
    question := job.question
    seriesId := job.seriesId
    candidateEpisodes := job.candidateEpisodes
    corpusAccessScope := job.corpusAccessScope
    profileWatchState := some watchState }

/-- A protected mode has its boundary, and question and candidates are within the
bounds of the series agent. -/
structure Conversable (job : AgentJob) : Prop where
  bounded : job.spoilerMode ≠ .relaxed → job.safeThroughEpisodeId.isSome
  question : job.question.length ≤ SeriesAgentConfiguration.questionMaxLength
  candidates : job.candidateEpisodes.length ≤ SeriesAgentConfiguration.maxCandidateEpisodes

instance (job : AgentJob) : Decidable (Conversable job) :=
  decidable_of_iff (_ ∧ _ ∧ _)
    ⟨fun h => ⟨h.1, h.2.1, h.2.2⟩, fun h => ⟨h.bounded, h.question, h.candidates⟩⟩

theorem jobWatchState_isOk (job : AgentJob) :
    (∃ watchState, jobWatchState job = .ok watchState) ↔
      (job.spoilerMode ≠ .relaxed → job.safeThroughEpisodeId.isSome) := by
  have named : Trimmed "API session" := by decide
  unfold jobWatchState
  cases mode : job.spoilerMode with
  | relaxed =>
      have unbounded : job.safeThroughEpisodeId = none := job.boundary_none mode
      refine iff_of_true ?_ (fun h => absurd rfl h)
      refine ⟨⟨job.ownerProfileId, _, [], .relaxed, 0, named, List.nodup_nil, Int.le_refl 0⟩, ?_⟩
      rw [buildBoundedWatchState, if_pos rfl, unbounded, reject_of_not (not_not.mpr rfl)]
      simp only [ok_bind, ProfileWatchState.make, dif_pos named]
      exact (dif_pos List.nodup_nil).trans (dif_pos (Int.le_refl 0))
  | strict | sequential =>
      cases boundary : job.safeThroughEpisodeId with
      | none =>
          refine iff_of_false ?_ (fun h => by cases h SpoilerMode.noConfusion)
          rintro ⟨watchState, built⟩
          have missing : job.candidateEpisodes.find?
              (fun episode => some episode.episodeId = none) = none := by
            rw [List.find?_eq_none]
            simp
          unfold buildBoundedWatchState at built
          rw [if_neg SpoilerMode.noConfusion, missing] at built
          cases built
      | some id =>
          refine iff_of_true ?_ (fun _ => rfl)
          obtain ⟨episode, member, rfl⟩ := job.boundary_candidate boundary
          obtain ⟨-, own, unique⟩ := job.candidates_valid
          have protected_mode : job.spoilerMode ≠ .relaxed := by
            rw [mode]
            exact SpoilerMode.noConfusion
          rw [← mode]
          obtain ⟨watchState, series, built, -⟩ :=
            BoundedWindow.build_encodes named protected_mode own unique member
          exact ⟨watchState, built⟩

/-- The query of a job can be built exactly within the bounds of the series agent. -/
theorem conversationQuery_isOk (job : AgentJob) :
    (∃ query, conversationQuery job = .ok query) ↔ Conversable job := by
  have trimmed := job.corpusAccessScope.revision_trimmed
  have checked (watchState : ProfileWatchState) :
      ConversationalSeriesChatQueryFields.check {
        threadId := job.threadId
        profileId := job.ownerProfileId
        permissionScopeRevision := job.permissionScopeRevision
        question := job.question
        seriesId := job.seriesId
        candidateEpisodes := job.candidateEpisodes
        corpusAccessScope := job.corpusAccessScope
        profileWatchState := some watchState } = .ok () ↔
      job.question.length ≤ SeriesAgentConfiguration.questionMaxLength ∧
        job.candidateEpisodes.length ≤ SeriesAgentConfiguration.maxCandidateEpisodes := by
    obtain ⟨nonempty, stripped⟩ := job.question_trimmed
    obtain ⟨candidates, own, unique⟩ := job.candidates_valid
    have shared : ¬((∃ item ∈ job.candidateEpisodes, item.seriesId ≠ job.seriesId) ∨
        ¬(job.candidateEpisodes.map EpisodeRef.episodeId).Nodup) := by
      rintro (⟨item, member, foreign⟩ | duplicate)
      · exact foreign (own item member)
      · exact duplicate unique
    simp [ConversationalSeriesChatQueryFields.check, job.revision_eq, trimmed, nonempty, stripped,
      candidates, -not_or, shared]
  constructor
  · rintro ⟨query, built⟩
    obtain ⟨watchState, watched, made⟩ := (bind_eq_ok _).mp built
    obtain ⟨question, candidates⟩ :=
      (checked watchState).mp (ConversationalSeriesChatQuery.make_isOk.mp ⟨query, made⟩)
    exact ⟨(jobWatchState_isOk job).mp ⟨watchState, watched⟩, question, candidates⟩
  · rintro ⟨bounded, question, candidates⟩
    obtain ⟨watchState, watched⟩ := (jobWatchState_isOk job).mpr bounded
    obtain ⟨query, made⟩ := ConversationalSeriesChatQuery.make_isOk.mpr
      ((checked watchState).mpr ⟨question, candidates⟩)
    refine ⟨query, ?_⟩
    rw [conversationQuery, watched]
    exact made

end Cinegraph
