import Cinegraph.SeriesMetadata.Provider

/-!
Which errors the steps of a fetch raise: those of the provider alone, exactly where the addresses
that are read outside a credit can be parsed.
-/

namespace Cinegraph

open Library

open SourceErrorMessages

section Raising

variable {α β : Type} {P Q : ErrorKind → Prop}

/-- Whatever is raised is of some kinds. -/
def Raises (P : ErrorKind → Prop) (x : Except Raised α) : Prop :=
  ∀ error, x = .error error → P error.kind

theorem Raises.mono {x : Except Raised α} (raises : Raises P x) (weaker : ∀ kind, P kind → Q kind) :
    Raises Q x :=
  fun error failed => weaker _ (raises error failed)

theorem raises_ok (a : α) : Raises P (.ok a : Except Raised α) := fun error failed => by cases failed

theorem raises_pure (a : α) : Raises P (pure a : Except Raised α) := raises_ok a

theorem raises_error (error : Raised) :
    Raises P (.error error : Except Raised α) ↔ P error.kind :=
  ⟨fun raises => raises error rfl, fun holds other failed => by cases failed; exact holds⟩

theorem raises_bind {x : Except Raised α} {f : α → Except Raised β} :
    Raises P (x >>= f) ↔ Raises P x ∧ ∀ a, x = .ok a → Raises P (f a) := by
  cases x with
  | error error =>
      constructor
      · exact fun raises => ⟨fun other failed => raises other (by cases failed; rfl),
          fun a same => by cases same⟩
      · exact fun raises other failed => raises.1 other (by cases failed; rfl)
  | ok a => exact ⟨fun raises => ⟨raises_ok a, fun b same => by cases same; exact raises⟩,
      fun raises => raises.2 a rfl⟩

theorem raises_reject {condition : Prop} [Decidable condition] {message : String}
    {kind : ErrorKind} (holds : P kind) : Raises P (reject condition message kind) := by
  unfold reject
  split
  · exact (raises_error _).mpr holds
  · exact raises_ok ()

theorem raises_orRaise {value : Option α} {error : Raised} (holds : P error.kind) :
    Raises P (orRaise value error) := by
  cases value with
  | none => exact (raises_error _).mpr holds
  | some a => exact raises_ok a

theorem raises_forM {check : α → Except Raised Unit} {items : List α}
    (each : ∀ item ∈ items, Raises P (check item)) : Raises P (items.forM check) := by
  induction items with
  | nil => exact raises_ok _
  | cons item rest ih =>
      obtain ⟨first, later⟩ := List.forall_mem_cons.mp each
      exact raises_bind.mpr ⟨first, fun _ _ => ih later⟩

theorem raises_mapM {f : α → Except Raised β} {items : List α}
    (each : ∀ item ∈ items, Raises P (f item)) : Raises P (items.mapM f) := by
  induction items with
  | nil => exact raises_pure _
  | cons item rest ih =>
      obtain ⟨first, later⟩ := List.forall_mem_cons.mp each
      rw [List.mapM_cons]
      exact raises_bind.mpr ⟨first, fun _ _ =>
        raises_bind.mpr ⟨ih later, fun _ _ => raises_pure _⟩⟩

/-- A loop raises what its turns raise, each in the state that the turns before it leave. -/
theorem raises_foldlM {σ : Type} {step : σ → α → Except Raised σ} {items : List α} {first : σ} :
    Raises P (items.foldlM step first) ↔ ∀ before item after, items = before ++ item :: after →
      ∀ state, before.foldlM step first = .ok state → Raises P (step state item) := by
  induction items generalizing first with
  | nil =>
      refine iff_of_true (raises_pure first) fun before item after same => ?_
      cases before <;> cases same
  | cons head rest ih =>
      rw [List.foldlM_cons, raises_bind]
      constructor
      · rintro ⟨one, later⟩ before item after same state ran
        cases before with
        | nil =>
            obtain ⟨rfl, rfl⟩ := List.cons.inj same
            cases ran
            exact one
        | cons other before =>
            obtain ⟨rfl, tail⟩ := List.cons.inj same
            rw [List.foldlM_cons, bind_eq_ok] at ran
            obtain ⟨next, stepped, ran⟩ := ran
            exact ih.mp (later next stepped) before item after tail state ran
      · intro each
        refine ⟨each [] head rest rfl first rfl, fun next stepped => ih.mpr ?_⟩
        intro before item after same state ran
        refine each (head :: before) item after (by rw [same]; rfl) state ?_
        rw [List.foldlM_cons, stepped]
        exact ran

end Raising

namespace TVMazeSeriesMetadataProvider

/-- `TVMazeProviderError` and its subclasses. -/
def IsProviderError (kind : ErrorKind) : Prop :=
  kind = .tvMazeProviderError ∨ kind = .tvMazeEpisodeReconciliationError ∨
    kind = .tvMazeShowMismatchError

/-- What the reading of a credit translates, and the errors of the provider. -/
def IsCreditError (kind : ErrorKind) : Prop :=
  kind ∈ [ErrorKind.keyError, .typeError, .valueError, .invalidModel] ∨ IsProviderError kind

section Reading

variable {P : ErrorKind → Prop} (provider : ∀ kind, IsProviderError kind → P kind)
include provider

theorem raises_malformed {α : Type} : Raises P (malformed : Except Raised α) :=
  (raises_error _).mpr (provider _ (Or.inl rfl))

theorem raises_get (answer : Except String Json) : Raises P (get answer) := by
  cases answer with
  | error detail => exact (raises_error _).mpr (provider _ (Or.inl rfl))
  | ok document => exact raises_ok document

theorem raises_mapping (value : Json) : Raises P (mapping value) := by
  cases value <;> first | exact raises_ok _ | exact raises_malformed provider

theorem raises_array (value : Json) : Raises P (array value) := by
  cases value <;> first | exact raises_ok _ | exact raises_malformed provider

theorem raises_positiveId (value : Json) : Raises P (positiveId value) := by
  unfold positiveId
  split
  · split
    · exact raises_malformed provider
    · exact raises_ok _
  · exact raises_malformed provider

theorem raises_seasonNumber (value : Json) : Raises P (seasonNumber value) := by
  unfold seasonNumber
  split
  · exact raises_ok _
  · split
    · exact raises_malformed provider
    · exact raises_ok _
  · exact raises_malformed provider

theorem raises_trimmed (value : Json) : Raises P (trimmed value) := by
  unfold trimmed
  split
  · split
    · exact raises_ok _
    · exact raises_malformed provider
  · exact raises_malformed provider

theorem raises_translating {α : Type} {kinds : List ErrorKind} {body : Except Raised α}
    (raises : Raises (fun kind => kind ∈ kinds ∨ P kind) body) :
    Raises P (translating kinds body) := by
  cases body with
  | ok value => exact raises_ok value
  | error error =>
      change Raises P (if error.kind ∈ kinds then malformed else .error error)
      split
      · exact raises_malformed provider
      · rename_i other
        exact (raises_error _).mpr (((raises_error _).mp raises).resolve_left other)

theorem raises_numbered (episode : List (String × Json)) : Raises P (numbered episode) := by
  unfold numbered
  refine raises_bind.mpr ⟨raises_seasonNumber provider _, fun season _ => ?_⟩
  cases season with
  | none => exact raises_pure _
  | some season =>
      dsimp only
      split
      · exact raises_pure _
      · exact raises_bind.mpr ⟨raises_positiveId provider _, fun _ _ => raises_pure _⟩

theorem raises_embeddedGuests (episode : List (String × Json)) :
    Raises P (embeddedGuests episode) := by
  unfold embeddedGuests
  split
  · exact raises_array provider _
  · exact raises_malformed provider

end Reading

section Addresses

variable [UrlText]

/-- An address that is a trimmed text can be parsed. -/
def Parses (value : Json) : Prop :=
  ∀ text, trimmed value = .ok text → (Url.parse text.toList).isSome

omit [UrlText] in
theorem trimmed_eq_ok {value : Json} {text : String} :
    trimmed value = .ok text ↔ value = .str text ∧ Trimmed text := by
  unfold trimmed
  split
  · split
    · rename_i holds
      exact ⟨fun same => by cases same; exact ⟨rfl, holds⟩, fun h => by cases h.1; rfl⟩
    · rename_i fails
      exact iff_of_false (fun h => by cases h) fun h => by cases h.1; exact fails h.2
  · rename_i other
    exact iff_of_false (fun h => by cases h) fun h => other _ h.1

/-- What an accepted address is. -/
theorem requireUrl_ok {value : Json} {text : String} (accepted : requireUrl value = .ok text) :
    Trimmed text ∧ ∃ parsed, urlparse text = .ok parsed ∧ parsed.scheme = "https".toList ∧
      parsed.netloc ≠ [] := by
  unfold requireUrl at accepted
  rw [bind_eq_ok] at accepted
  obtain ⟨given, spelled, accepted⟩ := accepted
  rw [bind_eq_ok] at accepted
  obtain ⟨parsed, read, accepted⟩ := accepted
  rw [reject_bind_eq_ok, not_or, not_not] at accepted
  obtain ⟨⟨scheme, host⟩, same⟩ := accepted
  cases same
  refine ⟨(trimmed_eq_ok.mp spelled).2, parsed, read, scheme, ?_⟩
  cases found : Url.hostname parsed with
  | none =>
      rw [found] at host
      exact absurd rfl host
  | some host => exact Url.netloc_ne_nil found

theorem validateUrl_ok {value : Json} {text : String} (accepted : requireUrl value = .ok text) :
    validateUrl text = .ok () := by
  obtain ⟨trimmed, parsed, read, scheme, located⟩ := requireUrl_ok accepted
  unfold validateUrl
  rw [read, ok_bind, reject_eq_ok, scheme]
  rintro (h | h | h)
  · exact h trimmed
  · exact h (List.mem_cons_of_mem _ List.mem_cons_self)
  · exact located h

/-- An address raises no error but those of the provider exactly when it can be parsed. -/
theorem raises_requireUrl {value : Json} :
    Raises IsProviderError (requireUrl value) ↔ Parses value := by
  unfold requireUrl
  rw [raises_bind, and_iff_right (raises_trimmed (fun _ => id) value)]
  refine forall_congr' fun text => forall_congr' fun _ => ?_
  rw [raises_bind]
  constructor
  · rintro ⟨raises, -⟩
    unfold urlparse at raises
    cases parsed : Url.parse text.toList with
    | some found => rfl
    | none =>
        rw [parsed] at raises
        rcases (raises_error _).mp raises with h | h | h <;> cases h
  · intro parses
    obtain ⟨parsed, found⟩ := Option.isSome_iff_exists.mp parses
    refine ⟨?_, fun _ _ => ?_⟩
    · rw [urlparse, found]
      exact raises_ok parsed
    · exact raises_bind.mpr ⟨raises_reject (Or.inl rfl), fun _ _ => raises_pure _⟩

theorem raises_urlparse {P : ErrorKind → Prop} (value_error : P .valueError) (text : String) :
    Raises P (urlparse text) := raises_orRaise value_error

theorem raises_requireUrl_credit (value : Json) : Raises IsCreditError (requireUrl value) := by
  unfold requireUrl
  refine raises_bind.mpr ⟨raises_trimmed (fun _ => Or.inr) value, fun text _ => ?_⟩
  refine raises_bind.mpr ⟨raises_urlparse (Or.inl (by decide)) text, fun parsed _ => ?_⟩
  exact raises_bind.mpr ⟨raises_reject (Or.inr (Or.inl rfl)), fun _ _ => raises_pure _⟩

theorem raises_validateUrl {P : ErrorKind → Prop} (value_error : P .valueError)
    (invalid : P .invalidModel) (text : String) : Raises P (validateUrl text) :=
  raises_bind.mpr ⟨raises_urlparse value_error text, fun _ _ => raises_reject invalid⟩

omit [UrlText] in
theorem raises_optional {P : ErrorKind → Prop} {α : Type} {value : Json}
    {convert : Json → Except Raised α} (raises : Raises P (convert value)) :
    Raises P (optional value convert) := by
  unfold optional
  split
  · exact raises_pure _
  · exact raises_bind.mpr ⟨raises, fun _ _ => raises_pure _⟩

omit [UrlText] in
theorem raises_validateText {P : ErrorKind → Prop} (invalid : P .invalidModel) (text : String) :
    Raises P (validateText text) := raises_reject invalid

omit [UrlText] in
theorem raises_subscript {P : ErrorKind → Prop} (key_error : P .keyError)
    (items : List (String × Json)) (key : String) : Raises P (subscript items key) :=
  raises_orRaise key_error

omit [UrlText] in
theorem creditError_of_provider (kind : ErrorKind) (provider : IsProviderError kind) :
    IsCreditError kind := Or.inr provider

theorem CreditedPersonFields_create_ok {credit : CreditedPersonFields} {made : CreditedPerson}
    (created : credit.create = .ok made) : made.toCreditedPersonFields = credit := by
  unfold CreditedPersonFields.create at created
  split at created
  · cases created
    rfl
  · cases created

theorem raises_createCredit (credit : CreditedPersonFields) :
    Raises IsCreditError credit.create := by
  have invalid : IsCreditError .invalidModel := Or.inl (by decide)
  have value_error : IsCreditError .valueError := Or.inl (by decide)
  have checked : Raises IsCreditError credit.validate := by
    unfold CreditedPersonFields.validate
    refine raises_bind.mpr ⟨raises_reject invalid, fun _ _ => ?_⟩
    refine raises_bind.mpr ⟨raises_validateText invalid _, fun _ _ => ?_⟩
    refine raises_bind.mpr ⟨raises_validateText invalid _, fun _ _ => ?_⟩
    refine raises_bind.mpr ⟨raises_validateUrl value_error invalid _, fun _ _ => ?_⟩
    exact raises_forM fun url _ => raises_validateUrl value_error invalid url
  unfold CreditedPersonFields.create
  split
  · exact raises_ok _
  · rename_i error failed
    exact (raises_error _).mpr (checked error failed)

/-- The reading of a credit translates whatever it does not raise itself. -/
theorem raises_person (kind : CreditKind) (raw : Json) :
    Raises IsProviderError (person kind raw) := by
  have key_error : IsCreditError .keyError := Or.inl (by decide)
  have provider := creditError_of_provider
  refine raises_translating (fun _ => id) ?_
  refine raises_bind.mpr ⟨raises_mapping provider raw, fun item _ => ?_⟩
  refine raises_bind.mpr ⟨raises_subscript key_error item "person", fun given _ => ?_⟩
  refine raises_bind.mpr ⟨raises_mapping provider given, fun person _ => ?_⟩
  refine raises_bind.mpr ⟨raises_subscript key_error item "character", fun given _ => ?_⟩
  refine raises_bind.mpr ⟨raises_mapping provider given, fun character _ => ?_⟩
  refine raises_bind.mpr ⟨raises_subscript key_error person "id", fun given _ => ?_⟩
  refine raises_bind.mpr ⟨raises_positiveId provider given, fun providerPersonId _ => ?_⟩
  refine raises_bind.mpr ⟨raises_subscript key_error person "name", fun given _ => ?_⟩
  refine raises_bind.mpr ⟨raises_trimmed provider given, fun name _ => ?_⟩
  refine raises_bind.mpr ⟨raises_subscript key_error person "url", fun given _ => ?_⟩
  refine raises_bind.mpr ⟨raises_requireUrl_credit given, fun canonicalUrl _ => ?_⟩
  refine raises_bind.mpr ⟨raises_subscript key_error character "name", fun given _ => ?_⟩
  refine raises_bind.mpr ⟨raises_trimmed provider given, fun characterName _ => ?_⟩
  refine raises_bind.mpr
    ⟨raises_optional (raises_positiveId provider _), fun characterProviderId _ => ?_⟩
  refine raises_bind.mpr
    ⟨raises_optional (raises_requireUrl_credit _), fun characterCanonicalUrl _ => ?_⟩
  exact raises_createCredit _

omit [UrlText] in
theorem translating_eq_ok {α : Type} {kinds : List ErrorKind} {body : Except Raised α} {a : α} :
    translating kinds body = .ok a ↔ body = .ok a := by
  cases body with
  | ok value => exact Iff.rfl
  | error error =>
      refine iff_of_false (fun same => ?_) (fun same => by cases same)
      change (if error.kind ∈ kinds then malformed else .error error) = .ok a at same
      split at same <;> cases same

theorem person_kind {kind : CreditKind} {raw : Json} {credit : CreditedPerson}
    (made : person kind raw = .ok credit) : credit.creditKind = kind := by
  unfold person at made
  simp only [translating_eq_ok, bind_eq_ok] at made
  obtain ⟨_, -, _, -, _, -, _, -, _, -, _, -, _, -, _, -, _, -, _, -, _, -, _, -, _, -, _, -, _, -,
    created⟩ := made
  rw [CreditedPersonFields_create_ok created]

omit [UrlText] in
theorem positive_of_positiveId {value : Json} {id : Int} (accepted : positiveId value = .ok id) :
    1 ≤ id := by
  unfold positiveId at accepted
  split at accepted
  · split at accepted
    · cases accepted
    · cases accepted
      omega
  · cases accepted

/-- The parts of a requested episode are accepted before they are joined. -/
theorem createCast_total (ref : EpisodeRef) {episode : List (String × Json)}
    {credits : List Json} {guestCast : List CreditedPerson} {providerEpisodeId : Int}
    {title canonicalUrl : String} (guests : credits.mapM (person .guest) = .ok guestCast)
    (identified : positiveId (field episode "id") = .ok providerEpisodeId)
    (named : trimmed (field episode "name") = .ok title)
    (located : requireUrl (field episode "url") = .ok canonicalUrl) :
    ∃ made, EpisodeCastFields.create ⟨ref, providerEpisodeId, title, canonicalUrl, guestCast⟩ =
      .ok made ∧ made.toEpisodeCastFields =
        ⟨ref, providerEpisodeId, title, canonicalUrl, guestCast⟩ := by
  have valid : EpisodeCastFields.validate ⟨ref, providerEpisodeId, title, canonicalUrl, guestCast⟩ =
      .ok () := by
    unfold EpisodeCastFields.validate
    have positive := positive_of_positiveId identified
    have spelled := (trimmed_eq_ok.mp named).2
    rw [reject_of_not (by omega : ¬providerEpisodeId < 1), ok_bind, validateText,
      reject_of_not (not_not.mpr spelled), ok_bind, validateUrl_ok located, ok_bind, reject_eq_ok]
    rintro ⟨credit, member, other⟩
    obtain ⟨raw, -, made⟩ := exists_of_mem_mapM guests member
    exact other (person_kind made)
  unfold EpisodeCastFields.create
  split
  · exact ⟨_, rfl, rfl⟩
  · rename_i failed
    rw [valid] at failed
    cases failed

/-- The address of an episode is read once its guests, its identifier and its name are accepted. -/
def EpisodeParses (episode : List (String × Json)) : Prop :=
  ∀ credits guestCast providerEpisodeId title, embeddedGuests episode = .ok credits →
    credits.mapM (person .guest) = .ok guestCast →
    positiveId (field episode "id") = .ok providerEpisodeId →
    trimmed (field episode "name") = .ok title → Parses (field episode "url")

theorem raises_episodeOf {ref : EpisodeRef} {episode : List (String × Json)} :
    Raises IsProviderError (episodeOf ref episode) ↔ EpisodeParses episode := by
  unfold episodeOf EpisodeParses
  rw [raises_bind, and_iff_right (raises_embeddedGuests (fun _ => id) episode)]
  have guests (credits : List Json) : Raises IsProviderError (credits.mapM (person .guest)) :=
    raises_mapM fun raw _ => raises_person .guest raw
  simp only [raises_bind, guests, raises_positiveId (fun _ => id), raises_trimmed (fun _ => id),
    raises_requireUrl, true_and]
  constructor
  · intro raises credits guestCast providerEpisodeId title embedded read identified named
    exact (raises credits embedded guestCast read providerEpisodeId identified title named).1
  · intro parses credits embedded guestCast read providerEpisodeId identified title named
    refine ⟨parses credits guestCast providerEpisodeId title embedded read identified named, ?_⟩
    intro canonicalUrl located
    obtain ⟨made, created, -⟩ := createCast_total ref read identified named located
    rw [created]
    exact raises_ok made

theorem raises_createAsset (asset : ArtworkAssetFields) :
    Raises (fun kind => kind ∈ [ErrorKind.invalidModel, .valueError] ∨ IsProviderError kind)
      asset.create := by
  have invalid : ErrorKind.invalidModel ∈ [ErrorKind.invalidModel, .valueError] ∨
      IsProviderError .invalidModel := Or.inl (by decide)
  have value_error : ErrorKind.valueError ∈ [ErrorKind.invalidModel, .valueError] ∨
      IsProviderError .valueError := Or.inl (by decide)
  have checked : Raises (fun kind => kind ∈ [ErrorKind.invalidModel, .valueError] ∨
      IsProviderError kind) asset.validate := by
    unfold ArtworkAssetFields.validate
    refine raises_bind.mpr ⟨raises_forM fun _ _ => raises_validateUrl value_error invalid _,
      fun _ _ => ?_⟩
    refine raises_bind.mpr ⟨raises_forM fun _ _ => raises_validateUrl value_error invalid _,
      fun _ _ => ?_⟩
    refine raises_bind.mpr ⟨raises_forM fun _ _ => raises_validateText invalid _, fun _ _ => ?_⟩
    refine raises_bind.mpr ⟨raises_forM fun _ _ => raises_validateText invalid _, fun _ _ => ?_⟩
    exact raises_bind.mpr ⟨raises_reject invalid, fun _ _ => raises_reject invalid⟩
  unfold ArtworkAssetFields.create
  split
  · exact raises_ok _
  · rename_i error failed
    exact (raises_error _).mpr (checked error failed)

/-- The address of the poster is the one that is offered first. -/
def PosterParses (shown : List (String × Json)) : Prop :=
  ∀ image, field shown "image" = .obj image → Parses (offeredImage image)

omit [UrlText] in
theorem mapping_eq_ok {value : Json} {items : List (String × Json)} :
    mapping value = .ok items ↔ value = .obj items := by
  cases value <;> simp [mapping, malformed]

omit [UrlText] in
theorem array_eq_ok {value : Json} {items : List Json} :
    array value = .ok items ↔ value = .arr items := by
  cases value <;> simp [array, malformed]

theorem raises_posterOf {shown : List (String × Json)} {canonicalUrl : String} {at_ : DateTime} :
    Raises IsProviderError (posterOf shown canonicalUrl at_) ↔ PosterParses shown := by
  unfold posterOf PosterParses
  split
  · rename_i absent
    refine iff_of_true (raises_pure _) fun image given => ?_
    rw [absent] at given
    cases given
  · rw [raises_bind, and_iff_right (raises_mapping (fun _ => id) _)]
    refine forall_congr' fun image => ?_
    rw [mapping_eq_ok]
    refine forall_congr' fun _ => ?_
    constructor
    · intro raises
      by_cases offered : offeredImage image = .null
      · rw [offered]
        exact fun text spelled => by cases spelled
      · rw [reject_of_not offered, ok_bind, raises_bind] at raises
        exact raises_requireUrl.mp raises.1
    · intro parses
      refine raises_bind.mpr ⟨raises_reject (Or.inl rfl), fun _ _ => ?_⟩
      refine raises_bind.mpr ⟨raises_requireUrl.mpr parses, fun imageUrl located => ?_⟩
      obtain ⟨-, parsed, read, -⟩ := requireUrl_ok located
      rw [read, ok_bind, raises_bind]
      refine ⟨raises_translating (fun _ => id) ?_, fun _ _ => raises_pure _⟩
      have address (value : Json) :
          Raises (fun kind => kind ∈ [ErrorKind.invalidModel, .valueError] ∨ IsProviderError kind)
            (requireUrl value) := by
        refine raises_bind.mpr ⟨raises_trimmed (fun _ => Or.inr) value, fun text _ => ?_⟩
        refine raises_bind.mpr ⟨raises_urlparse (Or.inl (by decide)) text, fun parsed _ => ?_⟩
        exact raises_bind.mpr ⟨raises_reject (Or.inr (Or.inl rfl)), fun _ _ => raises_pure _⟩
      refine raises_bind.mpr ⟨raises_optional (address _), fun _ _ => ?_⟩
      refine raises_bind.mpr ⟨raises_optional (address _), fun _ _ => ?_⟩
      exact raises_createAsset _

/-- The address of the show is read once it is the requested one and has a name. -/
def ShowParses (call : FetchCall) (answers : Answers) : Prop :=
  ∀ shown title, answers.showAnswer = .ok (.obj shown) →
    positiveId (field shown "id") = .ok call.providerShowId →
    trimmed (field shown "name") = .ok title → Parses (field shown "url")

omit [UrlText] in
theorem get_eq_ok {answer : Except String Json} {document : Json} :
    get answer = .ok document ↔ answer = .ok document := by
  cases answer <;> simp [get]

theorem raises_readShow {call : FetchCall} {answers : Answers} :
    Raises IsProviderError (readShow call answers) ↔ ShowParses call answers := by
  unfold readShow ShowParses
  rw [raises_bind, and_iff_right (raises_get (fun _ => id) _)]
  constructor
  · intro raises shown title answered identified named
    specialize raises (.obj shown) (get_eq_ok.mpr answered)
    rw [mapping_eq_ok.mpr rfl, ok_bind, identified, ok_bind, reject_of_not (not_not.mpr rfl),
      ok_bind, named, ok_bind, raises_bind] at raises
    exact raises_requireUrl.mp raises.1
  · intro parses document answered
    refine raises_bind.mpr ⟨raises_mapping (fun _ => id) _, fun shown mapped => ?_⟩
    refine raises_bind.mpr ⟨raises_positiveId (fun _ => id) _, fun showId identified => ?_⟩
    refine raises_bind.mpr ⟨raises_reject (Or.inl rfl), fun _ same => ?_⟩
    refine raises_bind.mpr ⟨raises_trimmed (fun _ => id) _, fun title named => ?_⟩
    rw [reject_eq_ok, not_not] at same
    rw [get_eq_ok, mapping_eq_ok.mp mapped] at answered
    rw [same] at identified
    refine raises_bind.mpr
      ⟨raises_requireUrl.mpr (parses shown title answered identified named), fun _ _ => ?_⟩
    exact raises_bind.mpr ⟨raises_reject (Or.inr (Or.inr rfl)), fun _ _ => raises_pure _⟩

theorem raises_readCast (answers : Answers) : Raises IsProviderError (readCast answers) := by
  unfold readCast
  refine raises_bind.mpr ⟨raises_get (fun _ => id) _, fun document _ => ?_⟩
  refine raises_bind.mpr ⟨raises_array (fun _ => id) _, fun items _ => ?_⟩
  exact raises_mapM fun raw _ => raises_person .regular raw

omit [UrlText] in
theorem raises_addSeason (numbers : List Int) (seasons : Dict Int Int) (raw : Json) :
    Raises IsProviderError (addSeason numbers seasons raw) := by
  unfold addSeason
  refine raises_bind.mpr ⟨raises_mapping (fun _ => id) _, fun season _ => ?_⟩
  refine raises_bind.mpr ⟨raises_seasonNumber (fun _ => id) _, fun number _ => ?_⟩
  cases number with
  | none => exact raises_pure _
  | some number =>
      dsimp only
      split
      · exact raises_pure _
      · refine raises_bind.mpr ⟨raises_positiveId (fun _ => id) _, fun seasonId _ => ?_⟩
        exact raises_bind.mpr ⟨raises_reject (Or.inr (Or.inl rfl)), fun _ _ => raises_pure _⟩

omit [UrlText] in
theorem raises_readSeasons (answers : Answers) (requested : Dict Place EpisodeRef) :
    Raises IsProviderError (readSeasons answers requested) := by
  unfold readSeasons
  refine raises_bind.mpr ⟨raises_get (fun _ => id) _, fun document _ => ?_⟩
  refine raises_bind.mpr ⟨raises_array (fun _ => id) _, fun items _ => ?_⟩
  refine raises_bind.mpr ⟨?_, fun seasons _ => ?_⟩
  · refine raises_foldlM.mpr fun _ raw _ _ seasons _ => raises_addSeason _ seasons raw
  · exact raises_bind.mpr ⟨raises_reject (Or.inr (Or.inl rfl)), fun _ _ => raises_pure _⟩

end Addresses

end TVMazeSeriesMetadataProvider

end Cinegraph
