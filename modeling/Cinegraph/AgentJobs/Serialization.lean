import Cinegraph.AgentJobs.Event
import Mathlib.Data.Finset.Sort
import Mathlib.Data.Prod.Lex

/-!
Durable JSON forms of episodes, access scopes and results, with their strict
readers. Every writer here is undone by its reader.
-/

namespace Cinegraph

open Library

/-- `set(value) == keys` for the keys of an object. -/
def sameKeys (items : JsonPayload) (keys : List String) : Bool :=
  (items.map Prod.fst).all (keys.contains ·) && keys.all ((items.map Prod.fst).contains ·)

/-- `except (TypeError, ValueError, KeyError): raise ValueError(message)`. -/
def malformed {α : Type} (message : String) (value : Except Raised α) : Except Raised α :=
  match value with
  | .ok a => .ok a
  | .error _ => .error (valueError message)

@[simp] theorem malformed_ok {α : Type} (message : String) (a : α) :
    malformed message (.ok a) = .ok a := rfl

def stringOf : Json → Except Raised String
  | .str value =>
      if value = "" then .error (valueError "expected nonempty string") else .ok value
  | _ => .error (valueError "expected nonempty string")

def integerOf : Json → Except Raised Int
  | .int value => .ok value
  | _ => .error (valueError "expected integer")

def uuidOf : Json → Except Raised UUID
  | .str value =>
      match UUID.canonical? value with
      | some u => .ok u
      | none => .error (valueError "expected canonical UUID")
  | _ => .error (valueError "expected canonical UUID")

/-- Readers of nullable values pass `null` through. -/
def nullable {α : Type} (read : Json → Except Raised α) : Json → Except Raised (Option α)
  | .null => .ok none
  | value => (read value).map some

/-- `value.get(key)` followed by a reader of nullable values. -/
def nullableAt {α : Type} (read : Json → Except Raised α) (items : JsonPayload) (key : String) :
    Except Raised (Option α) :=
  nullable read ((items.lookup key).getD .null)

def textOf : Json → Except Raised String
  | .str value => .ok value
  | _ => .error (valueError "expected nullable string")

def floatOf : Json → Except Raised FloatValue
  | .int value => .ok (.finite value)
  | .float value => .ok value
  | _ => .error (valueError "expected nullable float")

def uuidJson (u : UUID) : Json := .str u.str

@[simp] theorem uuidOf_uuidJson (u : UUID) : uuidOf (uuidJson u) = .ok u := by
  simp [uuidOf, uuidJson]

theorem nullable_nullableJson {α : Type} (read : Json → Except Raised α) (write : α → Json)
    (inverse : ∀ a, read (write a) = .ok a) (present : ∀ a, write a ≠ .null) (a : Option α) :
    nullable read (nullableJson write a) = .ok a := by
  cases a with
  | none => rfl
  | some a =>
      have h := inverse a
      cases hw : write a with
      | null => exact absurd hw (present a)
      | _ =>
          rw [hw] at h
          simp only [nullableJson, hw, nullable, h]
          rfl

def episodeToJson (value : EpisodeRef) : Json :=
  .obj [
    ("series_id", uuidJson value.seriesId),
    ("season_id", uuidJson value.seasonId),
    ("episode_id", uuidJson value.episodeId),
    ("season_number", .int value.position.seasonNumber),
    ("episode_number", .int value.position.episodeNumber)]

def episodeFromJson : Json → Except Raised EpisodeRef
  | .obj items => do
      reject (¬sameKeys items
        ["series_id", "season_id", "episode_id", "season_number", "episode_number"])
        "malformed episode state"
      malformed "malformed episode state" do
        let seriesId ← uuidOf (← valueAt items "series_id")
        let seasonId ← uuidOf (← valueAt items "season_id")
        let episodeId ← uuidOf (← valueAt items "episode_id")
        let seasonNumber ← integerOf (← valueAt items "season_number")
        let episodeNumber ← integerOf (← valueAt items "episode_number")
        let position ← EpisodePosition.make seasonNumber episodeNumber
        return ⟨seriesId, seasonId, episodeId, position⟩
  | _ => .error (valueError "malformed episode state")

theorem episodeFromJson_episodeToJson (value : EpisodeRef) :
    episodeFromJson (episodeToJson value) = .ok value := by
  have position := value.position.make_self
  simp [episodeFromJson, episodeToJson, sameKeys, valueAt, integerOf, List.lookup_cons, position]

section Scope

def CorpusAccessMode.members : List CorpusAccessMode := [.guest, .authenticated]

def CorpusAccessMode.value : CorpusAccessMode → String
  | .guest => "guest"
  | .authenticated => "authenticated"

/-- The key by which a scope's seasons are written out. The canonical text of an
identifier has a fixed width, so it orders as the number does. -/
def seasonKey (season : CorpusSeasonAccess) : Nat ×ₗ Int :=
  toLex (season.seriesId.int.toNat, season.seasonNumber)

theorem seasonKey_injective : Function.Injective seasonKey := by
  rintro ⟨⟨a⟩, n, _⟩ ⟨⟨b⟩, m, _⟩ same
  simp only [seasonKey, EmbeddingLike.apply_eq_iff_eq, Prod.mk.injEq] at same
  obtain ⟨ids, rfl⟩ := same
  rw [BitVec.eq_of_toNat_eq ids]

instance : LinearOrder CorpusSeasonAccess := LinearOrder.lift' seasonKey seasonKey_injective

def seasonToJson (season : CorpusSeasonAccess) : Json :=
  .obj [("series_id", uuidJson season.seriesId), ("season_number", .int season.seasonNumber)]

def seasonFromJson : Json → Except Raised CorpusSeasonAccess
  | .obj items => do
      reject (¬sameKeys items ["series_id", "season_number"]) "malformed access scope season"
      let seriesId ← uuidOf (← valueAt items "series_id")
      let seasonNumber ← integerOf (← valueAt items "season_number")
      CorpusSeasonAccess.make seriesId seasonNumber
  | _ => .error (valueError "malformed access scope season")

theorem seasonFromJson_seasonToJson (season : CorpusSeasonAccess) :
    seasonFromJson (seasonToJson season) = .ok season := by
  have made := season.make_self
  simp [seasonFromJson, seasonToJson, sameKeys, valueAt, integerOf, List.lookup_cons, made]

def scopeToJson (value : CorpusAccessScope) : Json :=
  .obj [
    ("mode", .str value.mode.value),
    ("revision", .str value.revision),
    ("unrestricted", .bool value.unrestricted),
    ("allowed_seasons", .arr (value.allowedSeasons.sort.map seasonToJson))]

def boolOf : Json → Except Raised Bool
  | .bool value => .ok value
  | _ => .error (valueError "malformed access scope")

def listOf (message : String) : Json → Except Raised (List Json)
  | .arr items => .ok items
  | _ => .error (valueError message)

def scopeFromJson : Json → Except Raised CorpusAccessScope
  | .obj items => do
      reject (¬sameKeys items ["mode", "revision", "unrestricted", "allowed_seasons"])
        "malformed access scope"
      malformed "malformed access scope" do
        let seasons ← listOf "malformed access scope seasons" (← valueAt items "allowed_seasons")
        let parsed ← seasons.mapM seasonFromJson
        reject (¬parsed.Nodup) "duplicate access scope season"
        let modeText ← stringOf (← valueAt items "mode")
        let mode ← enumOf CorpusAccessMode.members CorpusAccessMode.value (.str modeText)
        let revision ← stringOf (← valueAt items "revision")
        let unrestricted ← boolOf (← valueAt items "unrestricted")
        CorpusAccessScope.make mode revision parsed.toFinset unrestricted
  | _ => .error (valueError "malformed access scope")

theorem scopeFromJson_scopeToJson (value : CorpusAccessScope) :
    scopeFromJson (scopeToJson value) = .ok value := by
  have made := value.make_self
  have seasons : (value.allowedSeasons.sort.map seasonToJson).mapM seasonFromJson =
      .ok value.allowedSeasons.sort :=
    mapM_map_ok _ fun season _ => seasonFromJson_seasonToJson season
  have distinct : value.allowedSeasons.sort.Nodup := value.allowedSeasons.sort_nodup _
  have mode : stringOf (.str value.mode.value) = .ok value.mode.value := by
    cases value.mode <;> decide
  have member : enumOf CorpusAccessMode.members CorpusAccessMode.value (.str value.mode.value) =
      .ok value.mode := by
    cases value.mode <;> decide
  have revision : stringOf (.str value.revision) = .ok value.revision := by
    rw [stringOf, if_neg value.revision_trimmed.1]
  simp [scopeFromJson, scopeToJson, sameKeys, valueAt, boolOf, listOf, List.lookup_cons, seasons,
    distinct, mode, member, revision, made]

end Scope

section Result

def GraphEntityKind.members : List GraphEntityKind :=
  [.character, .person, .location, .organization, .object, .event, .concept]

def GraphClaimPolarity.members : List GraphClaimPolarity := [.asserted, .negated, .uncertain]

def CitationKind.members : List CitationKind := [.transcript, .graph]

def legacyCitationKeys : List String :=
  ["kind", "episode", "start_ms", "end_ms", "segment_id", "claim_id", "evidence_id"]

def modernCitationKeys : List String :=
  legacyCitationKeys ++ ["source_version_id", "transcript_chunk_id", "subject_entity_id",
    "subject_kind", "subject_display_name", "predicate", "object_entity_id", "object_kind",
    "object_display_name", "polarity", "hop_distance", "score"]

variable [Normalization]

def citationToJson (item : SeriesAgentCitation) : Json :=
  .obj [
    ("kind", .str item.kind.value),
    ("episode", episodeToJson item.episode),
    ("start_ms", .int item.startMs),
    ("end_ms", .int item.endMs),
    ("segment_id", nullableJson uuidJson item.segmentId),
    ("claim_id", nullableJson uuidJson item.claimId),
    ("evidence_id", nullableJson uuidJson item.evidenceId),
    ("source_version_id", nullableJson uuidJson item.sourceVersionId),
    ("transcript_chunk_id", nullableJson uuidJson item.transcriptChunkId),
    ("subject_entity_id", nullableJson uuidJson item.subjectEntityId),
    ("subject_kind", nullableJson (fun kind => .str kind.value) item.subjectKind),
    ("subject_display_name", nullableJson .str item.subjectDisplayName),
    ("predicate", nullableJson .str item.predicate),
    ("object_entity_id", nullableJson uuidJson item.objectEntityId),
    ("object_kind", nullableJson (fun kind => .str kind.value) item.objectKind),
    ("object_display_name", nullableJson .str item.objectDisplayName),
    ("polarity", nullableJson (fun polarity => .str polarity.value) item.polarity),
    ("hop_distance", nullableJson .int item.hopDistance),
    ("score", nullableJson .float item.score)]

def citationFromJson : Json → Except Raised SeriesAgentCitation
  | .obj items => do
      reject (¬sameKeys items legacyCitationKeys ∧ ¬sameKeys items modernCitationKeys)
        "malformed citation"
      malformed "malformed citation" do
        let kind ← enumOf CitationKind.members CitationKind.value (← valueAt items "kind")
        let episode ← episodeFromJson (← valueAt items "episode")
        let startMs ← integerOf (← valueAt items "start_ms")
        let endMs ← integerOf (← valueAt items "end_ms")
        let segmentId ← nullable uuidOf (← valueAt items "segment_id")
        let claimId ← nullable uuidOf (← valueAt items "claim_id")
        let evidenceId ← nullable uuidOf (← valueAt items "evidence_id")
        let sourceVersionId ← nullableAt uuidOf items "source_version_id"
        let transcriptChunkId ← nullableAt uuidOf items "transcript_chunk_id"
        let subjectEntityId ← nullableAt uuidOf items "subject_entity_id"
        let subjectKind ←
          nullableAt (enumOf GraphEntityKind.members GraphEntityKind.value) items "subject_kind"
        let subjectDisplayName ← nullableAt textOf items "subject_display_name"
        let predicate ← nullableAt textOf items "predicate"
        let objectEntityId ← nullableAt uuidOf items "object_entity_id"
        let objectKind ←
          nullableAt (enumOf GraphEntityKind.members GraphEntityKind.value) items "object_kind"
        let objectDisplayName ← nullableAt textOf items "object_display_name"
        let polarity ←
          nullableAt (enumOf GraphClaimPolarity.members GraphClaimPolarity.value) items "polarity"
        let hopDistance ← nullableAt integerOf items "hop_distance"
        let score ← nullableAt floatOf items "score"
        SeriesAgentCitation.make {
          kind, episode, startMs, endMs, segmentId, claimId, evidenceId, sourceVersionId,
          transcriptChunkId, subjectEntityId, subjectKind, subjectDisplayName, predicate,
          objectEntityId, objectKind, objectDisplayName, polarity, hopDistance, score }
  | _ => .error (valueError "malformed citation")

theorem citationFromJson_citationToJson (item : SeriesAgentCitation) :
    citationFromJson (citationToJson item) = .ok item := by
  have made := item.make_fields
  have kind : enumOf CitationKind.members CitationKind.value (.str item.kind.value) =
      .ok item.kind := by
    cases item.kind <;> decide
  have ids := nullable_nullableJson uuidOf uuidJson uuidOf_uuidJson (fun u => by simp [uuidJson])
  have kinds (k : Option GraphEntityKind) :
      nullable (enumOf GraphEntityKind.members GraphEntityKind.value)
        (nullableJson (fun kind => .str kind.value) k) = .ok k :=
    nullable_nullableJson _ _ (fun kind => by cases kind <;> decide) (fun _ => by simp) k
  have polarities (p : Option GraphClaimPolarity) :
      nullable (enumOf GraphClaimPolarity.members GraphClaimPolarity.value)
        (nullableJson (fun polarity => .str polarity.value) p) = .ok p :=
    nullable_nullableJson _ _ (fun polarity => by cases polarity <;> decide)
      (fun _ => by simp) p
  have texts (text : Option String) : nullable textOf (nullableJson .str text) = .ok text :=
    nullable_nullableJson textOf .str (fun _ => rfl) (fun _ => by simp) text
  have integers (n : Option Int) : nullable integerOf (nullableJson .int n) = .ok n :=
    nullable_nullableJson integerOf .int (fun _ => rfl) (fun _ => by simp) n
  have floats (x : Option FloatValue) : nullable floatOf (nullableJson .float x) = .ok x :=
    nullable_nullableJson floatOf .float (fun _ => rfl) (fun _ => by simp) x
  simp [citationFromJson, citationToJson, sameKeys, modernCitationKeys, legacyCitationKeys,
    valueAt, nullableAt, integerOf, List.lookup_cons, kind, ids, kinds, polarities, texts,
    integers, floats, episodeFromJson_episodeToJson]
  rw [made, malformed_ok]

def resultToJson (value : SeriesAgentResult) : Json :=
  .obj [
    ("answer", nullableJson .str value.answer),
    ("is_safe_refusal", .bool value.isSafeRefusal),
    ("used_tools", .arr (value.usedTools.map .str)),
    ("citations", .arr (value.citations.map citationToJson))]

def resultFromJson : Json → Except Raised SeriesAgentResult
  | .obj items => do
      reject (¬sameKeys items ["answer", "is_safe_refusal", "used_tools", "citations"])
        "malformed agent result"
      let refusal ← malformed "malformed agent result" do
        boolOf (← valueAt items "is_safe_refusal")
      let tools ← listOf "malformed agent result" (← valueAt items "used_tools")
      let citations ← listOf "malformed agent result" (← valueAt items "citations")
      let usedTools ← malformed "malformed agent result tools" (tools.mapM textOf)
      let parsed ← citations.mapM citationFromJson
      let answer ← malformed "malformed agent result answer" (nullableAt textOf items "answer")
      reject (¬(parsed.map SeriesAgentCitation.identity).Nodup) "duplicate citations"
      SeriesAgentResult.make ⟨answer, refusal, parsed, usedTools⟩
  | _ => .error (valueError "malformed agent result")

theorem resultFromJson_resultToJson (value : SeriesAgentResult) :
    resultFromJson (resultToJson value) = .ok value := by
  have made := value.make_fields
  have answer : nullable textOf (nullableJson .str value.answer) = .ok value.answer :=
    nullable_nullableJson textOf .str (fun _ => rfl) (fun _ => by simp) _
  have tools : (value.usedTools.map Json.str).mapM textOf = .ok value.usedTools :=
    mapM_map_ok _ fun _ _ => rfl
  have citations : (value.citations.map citationToJson).mapM citationFromJson =
      .ok value.citations :=
    mapM_map_ok _ fun item _ => citationFromJson_citationToJson item
  have distinct : (value.citations.map SeriesAgentCitation.identity).Nodup :=
    value.distinct_citations
  simp [resultFromJson, resultToJson, sameKeys, valueAt, nullableAt, boolOf, listOf,
    List.lookup_cons, answer, tools, citations, distinct]
  exact made

end Result

end Cinegraph
