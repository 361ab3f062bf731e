import Cinegraph.Library.Collecting
import Cinegraph.SeriesMetadata.ProviderErrors

/-!
When a fetch is all or nothing: what a fetch that succeeds says of the requested episodes, what it
does not depend on, and when it raises no errors but those of the provider.
-/

namespace Cinegraph

open Library

open SourceErrorMessages

namespace TVMazeSeriesMetadataProvider

/-- A call that is checked before the first request. -/
structure ValidCall (call : FetchCall) : Prop where
  identified : 1 ≤ call.providerShowId
  titled : Trimmed call.expectedTitle
  nonempty : call.episodes ≠ []
  ofSeries : ∀ episode ∈ call.episodes, episode.seriesId = call.seriesId
  distinct : (call.episodes.map placeOf).Nodup

theorem collects_requested : Collects (fun episode => some (some (placeOf episode, episode)))
    (fun (requested : Dict Place EpisodeRef) episode => do
      reject (placeOf episode ∈ requested.keys) TVMAZE_DUPLICATE_REQUESTED_EPISODE
      return requested.set (placeOf episode) episode) where
  step_ok {requested episode next} := by
    rw [reject_bind_eq_ok]
    constructor
    · rintro ⟨fresh, same⟩
      cases same
      exact Or.inr ⟨_, _, rfl, fresh, rfl⟩
    · rintro (⟨skipped, -⟩ | ⟨place, ref, entered, fresh, same⟩)
      · cases skipped
      · cases entered
        exact ⟨fresh, congrArg Except.ok same.symm⟩

/-- A valid call requests each episode at its place. -/
theorem checkCall_valid {call : FetchCall} (valid : ValidCall call) : ∃ requested,
    checkCall call = .ok requested ∧
      requested.entries = call.episodes.map fun episode => (placeOf episode, episode) := by
  have whole : readings (fun episode => some (some (placeOf episode, episode))) call.episodes =
      call.episodes.map fun episode => (placeOf episode, episode) :=
    congrFun List.filterMap_eq_map call.episodes
  have once : ((Dict.empty.entries ++ readings (fun episode => some (some (placeOf episode, episode)))
      call.episodes).map Prod.fst).Nodup := by
    rw [whole, List.map_append, List.map_map]
    exact valid.distinct
  obtain ⟨requested, ran⟩ := collects_requested.loop_total (fun _ _ => rfl) once
  refine ⟨requested, ?_, (collects_requested.loop_ok.mp ran).2.trans whole⟩
  have mismatch : ¬∃ episode ∈ call.episodes, episode.seriesId ≠ call.seriesId :=
    fun ⟨episode, member, other⟩ => other (valid.ofSeries episode member)
  unfold checkCall
  rw [reject_of_not (Int.not_lt.mpr valid.identified), ok_bind,
    reject_of_not (not_not.mpr valid.titled), ok_bind, reject_of_not valid.nonempty, ok_bind,
    reject_of_not mismatch, ok_bind]
  exact ran

section Seasons

variable (numbers : List Int)

/-- A season of the show that is requested, with its number. -/
def locateSeason (raw : Json) : Except Raised (Option (Int × List (String × Json))) := do
  let season ← mapping raw
  match ← seasonNumber (field season "number") with
  | none => return none
  | some number => if number ∈ numbers then return some (number, season) else return none

def seasonId (_number : Int) (season : List (String × Json)) : Except Raised Int :=
  positiveId (field season "id")

def enterSeason (seasons : Dict Int Int) (number : Int) (season : List (String × Json)) :
    Except Raised (Dict Int Int) := do
  let id ← seasonId number season
  reject (number ∈ seasons.keys) TVMAZE_DUPLICATE_SEASON .tvMazeEpisodeReconciliationError
  return seasons.set number id

theorem addSeason_eq : addSeason numbers = enterLocated (locateSeason numbers) enterSeason := by
  funext seasons raw
  unfold addSeason enterLocated locateSeason
  cases mapping raw with
  | error error => rfl
  | ok season =>
      rw [ok_bind, ok_bind]
      cases seasonNumber (field season "number") with
      | error error => rfl
      | ok number =>
          rw [ok_bind, ok_bind]
          cases number with
          | none => rfl
          | some number => by_cases wanted : number ∈ numbers <;> simp [wanted] <;> rfl

/-- What an item of the season list adds. -/
def readSeason : Json → Option (Option (Int × Int)) := readLocated (locateSeason numbers) seasonId

theorem collects_addSeason : Collects (readSeason numbers) (addSeason numbers) := by
  rw [addSeason_eq]
  refine collects_located fun {seasons number season next} => ?_
  unfold enterSeason
  rw [bind_eq_ok]
  refine exists_congr fun id => and_congr_right fun _ => ?_
  rw [reject_bind_eq_ok]
  refine and_congr_right fun _ => ?_
  exact ⟨fun same => by cases same; rfl, fun same => by rw [same]; rfl⟩

end Seasons

section Episodes

variable [UrlText] (requested : Dict Place EpisodeRef)

omit [UrlText] in
/-- A requested episode, with its place and what the provider says of it. -/
def locateEpisode (raw : Json) :
    Except Raised (Option (Place × EpisodeRef × List (String × Json))) := do
  let episode ← mapping raw
  match ← numbered episode with
  | none => return none
  | some place => return (requested.get? place).map fun ref => (place, ref, episode)

def castOf (_place : Place) (located : EpisodeRef × List (String × Json)) :
    Except Raised EpisodeCastMetadata := episodeOf located.1 located.2

local instance : LawfulBEq Place := inferInstance

def enterEpisode (mapped : Dict Place EpisodeCastMetadata) (place : Place)
    (located : EpisodeRef × List (String × Json)) :
    Except Raised (Dict Place EpisodeCastMetadata) := do
  reject (place ∈ mapped.keys) TVMAZE_DUPLICATE_EPISODE .tvMazeEpisodeReconciliationError
  return mapped.set place (← castOf place located)

theorem addEpisode_eq : addEpisode requested = enterLocated (locateEpisode requested) enterEpisode := by
  funext mapped raw
  unfold addEpisode enterLocated locateEpisode
  cases mapping raw with
  | error error => rfl
  | ok episode =>
      rw [ok_bind, ok_bind]
      cases numbered episode with
      | error error => rfl
      | ok place =>
          rw [ok_bind, ok_bind]
          cases place with
          | none => rfl
          | some place =>
              dsimp only
              cases requested.get? place <;> rfl

/-- What an item of the episode lists adds. -/
def readEpisode : Json → Option (Option (Place × EpisodeCastMetadata)) :=
  readLocated (locateEpisode requested) castOf

theorem collects_addEpisode : Collects (readEpisode requested) (addEpisode requested) := by
  rw [addEpisode_eq]
  refine collects_located fun {mapped place located next} => ?_
  unfold enterEpisode
  rw [reject_bind_eq_ok, bind_eq_ok]
  constructor
  · rintro ⟨fresh, cast, read, same⟩
    cases same
    exact ⟨cast, read, fresh, rfl⟩
  · rintro ⟨cast, read, fresh, same⟩
    exact ⟨fresh, cast, read, congrArg Except.ok same.symm⟩

variable (answers : Answers) (seasons : Dict Int Int)

omit [UrlText] in
/-- The episode list of a requested season. -/
def itemsOf (number : Int) : Except Raised (List Json) := do
  let seasonId ← orRaise (seasons.get? number) ⟨.keyError, toString number⟩
  array (← get (answers.episodesAnswer number seasonId))

theorem addSeasonEpisodes_eq (mapped : Dict Place EpisodeCastMetadata) (number : Int) :
    addSeasonEpisodes answers requested seasons mapped number =
      itemsOf answers seasons number >>= fun items => items.foldlM (addEpisode requested) mapped := by
  unfold addSeasonEpisodes itemsOf
  rw [bind_assoc]
  refine congrArg _ (funext fun seasonId => ?_)
  rw [bind_assoc]

variable {requested answers seasons}

/-- The loop over the seasons is the loop over the episodes of their lists. -/
theorem foldlM_addSeasonEpisodes {numbers : List Int} {first last : Dict Place EpisodeCastMetadata} :
    numbers.foldlM (addSeasonEpisodes answers requested seasons) first = .ok last ↔
      ∃ lists, numbers.mapM (itemsOf answers seasons) = .ok lists ∧
        lists.flatten.foldlM (addEpisode requested) first = .ok last := by
  induction numbers generalizing first with
  | nil => exact ⟨fun ran => ⟨[], rfl, ran⟩, fun ⟨lists, read, ran⟩ => by cases read; exact ran⟩
  | cons number rest ih =>
      rw [List.foldlM_cons, addSeasonEpisodes_eq, bind_assoc, bind_eq_ok, List.mapM_cons]
      constructor
      · rintro ⟨items, listed, ran⟩
        obtain ⟨next, one, ran⟩ := (bind_eq_ok _).mp ran
        obtain ⟨lists, read, ran⟩ := ih.mp ran
        refine ⟨items :: lists, by rw [listed, ok_bind, read]; rfl, ?_⟩
        rw [List.flatten_cons, List.foldlM_append, one]
        exact ran
      · rintro ⟨whole, all, ran⟩
        obtain ⟨items, listed, others⟩ := (bind_eq_ok _).mp all
        obtain ⟨lists, read, same⟩ := (bind_eq_ok _).mp others
        cases same
        rw [List.flatten_cons, List.foldlM_append] at ran
        obtain ⟨next, one, ran⟩ := (bind_eq_ok _).mp ran
        exact ⟨items, listed, (bind_eq_ok _).mpr ⟨next, one, ih.mpr ⟨lists, read, ran⟩⟩⟩

/-- An item of the episode lists that the loops come to, with the items before it. -/
def Reached (requested : Dict Place EpisodeRef) (answers : Answers) (seasons : Dict Int Int)
    (before : List Json) (item : Json) : Prop :=
  ∃ numbers number rest lists earlier later,
    requestedSeasons requested = numbers ++ number :: rest ∧
      numbers.mapM (itemsOf answers seasons) = .ok lists ∧
      itemsOf answers seasons number = .ok (earlier ++ item :: later) ∧
      before = lists.flatten ++ earlier

/-- The address of a requested episode is read once the items before it are accepted. -/
def EpisodesParse (requested : Dict Place EpisodeRef) (answers : Answers) (seasons : Dict Int Int) :
    Prop :=
  ∀ before episode place, Reached requested answers seasons before (.obj episode) →
    (∀ item ∈ before, (readEpisode requested item).isSome) →
    numbered episode = .ok (some place) → place ∈ requested.keys →
    ((readings (readEpisode requested) before).map Prod.fst ++ [place]).Nodup →
    EpisodeParses episode

theorem raises_addEpisode {mapped : Dict Place EpisodeCastMetadata} {raw : Json} :
    Raises IsProviderError (addEpisode requested mapped raw) ↔ ∀ episode place, raw = .obj episode →
      numbered episode = .ok (some place) → place ∈ requested.keys → place ∉ mapped.keys →
      EpisodeParses episode := by
  unfold addEpisode
  rw [raises_bind, and_iff_right (raises_mapping (fun _ => id) raw)]
  refine forall_congr' fun episode => ?_
  rw [mapping_eq_ok]
  constructor
  · intro raises place given located wanted fresh
    specialize raises given
    rw [located, ok_bind] at raises
    obtain ⟨ref, found⟩ := Dict.get?_of_mem_keys wanted
    dsimp only at raises
    rw [found] at raises
    dsimp only at raises
    rw [reject_of_not fresh, ok_bind, raises_bind] at raises
    exact raises_episodeOf.mp raises.1
  · intro parses given
    refine raises_bind.mpr ⟨raises_numbered (fun _ => id) episode, fun place located => ?_⟩
    cases place with
    | none => exact raises_pure _
    | some place =>
        dsimp only
        cases found : requested.get? place with
        | none => exact raises_pure _
        | some ref =>
            dsimp only
            refine raises_bind.mpr ⟨raises_reject (Or.inr (Or.inl rfl)), fun _ fresh => ?_⟩
            rw [reject_eq_ok] at fresh
            have read := parses place given located (Dict.mem_keys_of_get? found) fresh
            exact raises_bind.mpr ⟨raises_episodeOf.mpr read, fun _ _ => raises_pure _⟩

omit [UrlText] in
theorem raises_itemsOf {number : Int} (covered : number ∈ seasons.keys) :
    Raises IsProviderError (itemsOf answers seasons number) := by
  obtain ⟨seasonId, found⟩ := Dict.get?_of_mem_keys covered
  unfold itemsOf
  rw [found]
  refine raises_bind.mpr ⟨raises_ok _, fun asked _ => ?_⟩
  exact raises_bind.mpr ⟨raises_get (fun _ => id) _, fun document _ => raises_array (fun _ => id) _⟩

theorem raises_readEpisodes
    (covered : ∀ number ∈ requestedSeasons requested, number ∈ seasons.keys) :
    Raises IsProviderError (readEpisodes answers requested seasons) ↔
      EpisodesParse requested answers seasons := by
  unfold readEpisodes
  rw [raises_bind, and_iff_left fun mapped _ =>
    raises_bind.mpr ⟨raises_reject (Or.inr (Or.inl rfl)), fun _ _ => raises_pure _⟩, raises_foldlM]
  constructor
  · rintro raises before episode place
      ⟨numbers, number, rest, lists, earlier, later, split, read, listed, rfl⟩ all located wanted once
    rw [List.nodup_append] at once
    obtain ⟨state, ran⟩ := (collects_addEpisode requested).loop_total (d := .empty) all once.1
    have entries := ((collects_addEpisode requested).loop_ok.mp ran).2
    rw [List.foldlM_append] at ran
    obtain ⟨mapped, outer, inner⟩ := (bind_eq_ok _).mp ran
    have turn := raises numbers number rest split mapped
      (foldlM_addSeasonEpisodes.mpr ⟨lists, read, outer⟩)
    rw [addSeasonEpisodes_eq, listed, ok_bind, raises_foldlM] at turn
    refine raises_addEpisode.mp (turn earlier _ later rfl state inner) episode place rfl located
      wanted fun there => ?_
    rw [Dict.keys, entries] at there
    exact once.2.2 place there place List.mem_cons_self rfl
  · intro parses numbers number rest split mapped outer
    obtain ⟨lists, read, outer⟩ := foldlM_addSeasonEpisodes.mp outer
    have member : number ∈ requestedSeasons requested := by
      rw [split]
      exact List.mem_append_right _ List.mem_cons_self
    rw [addSeasonEpisodes_eq]
    refine raises_bind.mpr ⟨raises_itemsOf (covered number member), fun items listed => ?_⟩
    refine raises_foldlM.mpr fun earlier item later parts state inner => ?_
    refine raises_addEpisode.mpr fun episode place given located wanted fresh => ?_
    have ran : (lists.flatten ++ earlier).foldlM (addEpisode requested) .empty = .ok state := by
      rw [List.foldlM_append, outer]
      exact inner
    obtain ⟨all, entries⟩ := (collects_addEpisode requested).loop_ok.mp ran
    rw [parts, given] at listed
    refine parses _ episode place ⟨numbers, number, rest, lists, earlier, later, split, read, listed,
      rfl⟩ all located wanted ?_
    have once := state.nodup_keys
    rw [Dict.keys, entries] at once fresh
    exact List.nodup_append.mpr ⟨once, List.nodup_singleton place, fun a there b last same =>
      fresh (by rw [← List.mem_singleton.mp last, ← same]; exact there)⟩

omit [UrlText] in
theorem readSeasons_eq_ok : readSeasons answers requested = .ok seasons ↔
    ∃ items, answers.seasonsAnswer = .ok (.arr items) ∧
      items.foldlM (addSeason (requestedSeasons requested)) .empty = .ok seasons ∧
      ∀ number ∈ requestedSeasons requested, number ∈ seasons.keys := by
  unfold readSeasons
  simp only [bind_eq_ok, get_eq_ok, array_eq_ok, reject_eq_ok]
  constructor
  · rintro ⟨document, answered, items, rfl, found, ran, -, complete, same⟩
    cases same
    exact ⟨items, answered, ran, fun number member => by_contra fun missing =>
      complete ⟨number, member, missing⟩⟩
  · rintro ⟨items, answered, ran, complete⟩
    exact ⟨_, answered, items, rfl, seasons, ran, (),
      fun ⟨number, member, missing⟩ => missing (complete number member), rfl⟩

theorem readEpisodes_eq_ok {mapped : Dict Place EpisodeCastMetadata} :
    readEpisodes answers requested seasons = .ok mapped ↔
      ∃ lists, (requestedSeasons requested).mapM (itemsOf answers seasons) = .ok lists ∧
        ((∀ item ∈ lists.flatten, (readEpisode requested item).isSome) ∧
          mapped.entries = readings (readEpisode requested) lists.flatten) ∧
        ∀ place ∈ requested.keys, place ∈ mapped.keys := by
  unfold readEpisodes
  simp only [bind_eq_ok, foldlM_addSeasonEpisodes, reject_eq_ok]
  constructor
  · rintro ⟨found, ⟨lists, read, ran⟩, -, complete, same⟩
    cases same
    refine ⟨lists, read, (collects_addEpisode requested).loop_ok.mp ran, fun place member => ?_⟩
    exact by_contra fun missing => complete ⟨place, member, missing⟩
  · rintro ⟨lists, read, collected, complete⟩
    exact ⟨mapped, ⟨lists, read, (collects_addEpisode requested).loop_ok.mpr collected⟩, (),
      fun ⟨place, member, missing⟩ => missing (complete place member), rfl⟩

end Episodes

section Fetching

variable [UrlText]

/-- Each address that a fetch reads outside a credit can be parsed when the fetch comes to it. -/
structure AddressesParse (call : FetchCall) (answers : Answers) (assetAt : DateTime) : Prop where
  ofShow : ShowParses call answers
  ofPoster : ∀ shown title canonicalUrl,
    readShow call answers = .ok (shown, title, canonicalUrl) → PosterParses shown
  ofEpisodes : ∀ requested shown title canonicalUrl poster regularCast seasons,
    checkCall call = .ok requested → readShow call answers = .ok (shown, title, canonicalUrl) →
    posterOf shown canonicalUrl assetAt = .ok poster → readCast answers = .ok regularCast →
    readSeasons answers requested = .ok seasons → EpisodesParse requested answers seasons

/-- A fetch raises no errors but those of the provider exactly where the addresses parse. -/
theorem raises_fetch {call : FetchCall} {answers : Answers} {assetAt fetchedAt : DateTime}
    (valid : ValidCall call) : Raises IsProviderError (fetch call answers assetAt fetchedAt) ↔
      AddressesParse call answers assetAt := by
  obtain ⟨requested, checked, -⟩ := checkCall_valid valid
  unfold fetch
  rw [checked, ok_bind, raises_bind, raises_readShow]
  have covered {seasons : Dict Int Int} (read : readSeasons answers requested = .ok seasons) :
      ∀ number ∈ requestedSeasons requested, number ∈ seasons.keys := by
    obtain ⟨items, -, -, complete⟩ := readSeasons_eq_ok.mp read
    exact complete
  constructor
  · rintro ⟨ofShow, rest⟩
    refine ⟨ofShow, fun shown title canonicalUrl shows => ?_, ?_⟩
    · exact raises_posterOf.mp (raises_bind.mp (rest _ shows)).1
    · intro known shown title canonicalUrl poster regularCast seasons checked_known shows pictured
        credited read
      cases checked.symm.trans checked_known
      have afterPoster := (raises_bind.mp (rest _ shows)).2 poster pictured
      have afterCast := (raises_bind.mp afterPoster).2 regularCast credited
      have afterSeasons := (raises_bind.mp afterCast).2 seasons read
      exact (raises_readEpisodes (covered read)).mp (raises_bind.mp afterSeasons).1
  · rintro ⟨ofShow, ofPoster, ofEpisodes⟩
    refine ⟨ofShow, fun (shown, title, canonicalUrl) shows => ?_⟩
    refine raises_bind.mpr
      ⟨raises_posterOf.mpr (ofPoster shown title canonicalUrl shows), fun poster pictured => ?_⟩
    refine raises_bind.mpr ⟨raises_readCast answers, fun regularCast credited => ?_⟩
    refine raises_bind.mpr ⟨raises_readSeasons answers requested, fun seasons read => ?_⟩
    have parse := ofEpisodes requested shown title canonicalUrl poster regularCast seasons checked
      shows pictured credited read
    exact raises_bind.mpr
      ⟨(raises_readEpisodes (covered read)).mpr parse, fun _ _ => raises_pure _⟩

end Fetching

section Joining

/-- The position of an item, where it is an episode that is numbered. -/
def locatedAt : Json → Option Place
  | .obj episode => (numbered episode).toOption.join
  | _ => none

variable [UrlText] {requested : Dict Place EpisodeRef}

omit [UrlText] in
theorem locateEpisode_eq_ok {raw : Json} {place : Place} {ref : EpisodeRef}
    {episode : List (String × Json)} :
    locateEpisode requested raw = .ok (some (place, ref, episode)) ↔ raw = .obj episode ∧
      numbered episode = .ok (some place) ∧ requested.get? place = some ref := by
  unfold locateEpisode
  simp only [bind_eq_ok, mapping_eq_ok]
  constructor
  · rintro ⟨given, rfl, found, located, same⟩
    cases found with
    | none => cases same
    | some there =>
        dsimp only at same
        cases known : requested.get? there with
        | none =>
            rw [known] at same
            cases same
        | some other =>
            rw [known] at same
            cases same
            exact ⟨rfl, located, known⟩
  · rintro ⟨rfl, located, known⟩
    refine ⟨episode, rfl, some place, located, ?_⟩
    dsimp only
    rw [known]
    rfl

theorem episodeOf_episode {ref : EpisodeRef} {episode : List (String × Json)}
    {cast : EpisodeCastMetadata} (made : episodeOf ref episode = .ok cast) : cast.episode = ref := by
  unfold episodeOf at made
  simp only [bind_eq_ok] at made
  obtain ⟨credits, -, guestCast, guests, providerEpisodeId, identified, title, named, canonicalUrl,
    located, created⟩ := made
  obtain ⟨other, created_other, fields⟩ := createCast_total ref guests identified named located
  cases created.symm.trans created_other
  rw [fields]

/-- What is entered for an item is made of the requested episode at its place. -/
theorem readEpisode_entered {raw : Json} {place : Place} {cast : EpisodeCastMetadata}
    (entered : readEpisode requested raw = some (some (place, cast))) :
    requested.get? place = some cast.episode ∧ locatedAt raw = some place ∧
      ∃ episode, raw = .obj episode ∧ episodeOf cast.episode episode = .ok cast := by
  unfold readEpisode readLocated at entered
  split at entered
  · cases entered
  · cases entered
  · rename_i there located found
    obtain ⟨ref, episode⟩ := located
    obtain ⟨rfl, numbered, known⟩ := locateEpisode_eq_ok.mp found
    cases made : castOf there (ref, episode) with
    | error error =>
        rw [made] at entered
        cases entered
    | ok other =>
        rw [made] at entered
        cases entered
        have same := episodeOf_episode made
        refine ⟨same ▸ known, ?_, episode, rfl, same ▸ made⟩
        rw [locatedAt, numbered]
        rfl

/-- An item that is read at a requested place is entered there. -/
theorem entered_of_locatedAt {raw : Json} {place : Place}
    (read : (readEpisode requested raw).isSome) (located : locatedAt raw = some place)
    (wanted : place ∈ requested.keys) :
    ∃ cast, readEpisode requested raw = some (some (place, cast)) := by
  obtain ⟨ref, known⟩ := Dict.get?_of_mem_keys wanted
  cases raw with
  | obj episode =>
      have there : numbered episode = .ok (some place) := by
        change (numbered episode).toOption.join = some place at located
        cases found : numbered episode with
        | error error =>
            rw [found] at located
            cases located
        | ok value =>
            rw [found] at located
            exact congrArg Except.ok located
      have found := locateEpisode_eq_ok.mpr ⟨rfl, there, known⟩
      unfold readEpisode readLocated at read ⊢
      rw [found] at read ⊢
      cases made : castOf place (ref, episode) with
      | error error =>
          dsimp only at read
          rw [made] at read
          cases read
      | ok cast =>
          refine ⟨cast, ?_⟩
          dsimp only
          rw [made]
          rfl
  | _ => cases located

/-- An entry is read of the only item at its place. -/
theorem only_item {items : List Json} {place : Place} {cast : EpisodeCastMetadata}
    (all : ∀ item ∈ items, (readEpisode requested item).isSome)
    (once : ((readings (readEpisode requested) items).map Prod.fst).Nodup)
    (wanted : place ∈ requested.keys)
    (entry : (place, cast) ∈ readings (readEpisode requested) items) : ∃ episode,
      items.filter (fun raw => locatedAt raw = some place) = [.obj episode] ∧
        episodeOf cast.episode episode = .ok cast := by
  induction items with
  | nil => cases entry
  | cons item rest ih =>
      obtain ⟨read, each⟩ := List.forall_mem_cons.mp all
      obtain ⟨value, found⟩ := Option.isSome_iff_exists.mp read
      cases value with
      | none =>
          rw [readings_skipped found] at once entry
          have elsewhere : locatedAt item ≠ some place := by
            intro located
            obtain ⟨other, entered⟩ := entered_of_locatedAt read located wanted
            rw [found] at entered
            cases entered
          rw [List.filter_cons_of_neg (by simpa using elsewhere)]
          exact ih each once entry
      | some first =>
          obtain ⟨there, other⟩ := first
          rw [readings_entered found] at once entry
          rw [List.map_cons, List.nodup_cons] at once
          obtain ⟨known, located, episode, rfl, made⟩ := readEpisode_entered found
          rcases List.mem_cons.mp entry with same | later
          · cases same
            refine ⟨episode, ?_, made⟩
            rw [List.filter_cons_of_pos (by simpa using located), List.filter_eq_nil_iff.mpr]
            intro raw member again
            obtain ⟨second, entered⟩ := entered_of_locatedAt (each raw member)
              (by simpa using again) wanted
            refine once.1 (List.mem_map.mpr ⟨(place, second), ?_, rfl⟩)
            exact List.mem_filterMap.mpr ⟨raw, member, by rw [entered]; rfl⟩
          · have apart : there ≠ place := fun same =>
              once.1 (same ▸ List.mem_map.mpr ⟨(place, cast), later, rfl⟩)
            rw [List.filter_cons_of_neg (by simpa [located] using apart)]
            exact ih each once.2 later

section Collected

variable {mapped : Dict Place EpisodeCastMetadata} {items : List Json}
  (entries : mapped.entries = readings (readEpisode requested) items)
include entries

/-- The episode that is entered at a place was requested there. -/
theorem requested_of_entry {place : Place} {cast : EpisodeCastMetadata}
    (entry : mapped.get? place = some cast) : requested.get? place = some cast.episode := by
  rw [← mapped.mem_entries_iff, entries] at entry
  obtain ⟨raw, -, read⟩ := List.mem_filterMap.mp entry
  exact (readEpisode_entered (Option.join_eq_some_iff.mp read)).1

end Collected

theorem mem_ascending {mapped : Dict Place EpisodeCastMetadata} {cast : EpisodeCastMetadata} :
    cast ∈ ascending mapped ↔ ∃ place, mapped.get? place = some cast := by
  unfold ascending
  rw [List.mem_filterMap]
  constructor
  · rintro ⟨place, -, found⟩
    exact ⟨place, found⟩
  · rintro ⟨place, found⟩
    exact ⟨place, mem_sortedBy.mpr (Dict.mem_keys_of_get? found), found⟩

/-- In ascending order the places of the episodes are the sorted keys. -/
theorem places_ascending {mapped : Dict Place EpisodeCastMetadata}
    (placed : ∀ place cast, mapped.get? place = some cast → placeOf cast.episode = place) :
    (ascending mapped).map (fun cast => placeOf cast.episode) = sortedBy toLex mapped.keys := by
  have each (places : List Place) (there : ∀ place ∈ places, place ∈ mapped.keys) :
      (places.filterMap mapped.get?).map (fun cast => placeOf cast.episode) = places := by
    induction places with
    | nil => rfl
    | cons place rest ih =>
        obtain ⟨present, others⟩ := List.forall_mem_cons.mp there
        obtain ⟨cast, found⟩ := Dict.get?_of_mem_keys present
        rw [List.filterMap_cons_some found, List.map_cons, placed place cast found, ih others]
  exact each _ fun place member => mem_sortedBy.mp member

/-- The items of the episode lists of the requested seasons. -/
def FetchedItems (call : FetchCall) (answers : Answers) (items : List Json) : Prop :=
  ∃ requested seasons lists, checkCall call = .ok requested ∧
    readSeasons answers requested = .ok seasons ∧
    (requestedSeasons requested).mapM (itemsOf answers seasons) = .ok lists ∧ items = lists.flatten

/-- The episodes are the requested ones, each once and in ascending position, and each is built of
the only item with its season and number. -/
structure Joined (call : FetchCall) (answers : Answers) (episodes : List EpisodeCastMetadata) :
    Prop where
  exactly : (episodes.map fun cast => cast.episode).Perm call.episodes
  ascends : episodes.Pairwise fun a b => toLex (placeOf a.episode) < toLex (placeOf b.episode)
  built : ∃ items, FetchedItems call answers items ∧ ∀ cast ∈ episodes, ∃ episode,
    items.filter (fun raw => locatedAt raw = some (placeOf cast.episode)) = [.obj episode] ∧
      episodeOf cast.episode episode = .ok cast

variable {call : FetchCall} {answers : Answers}

omit [UrlText] in
theorem ascending_strictly {places : List Place} (once : places.Nodup) :
    (sortedBy toLex places).Pairwise fun a b => toLex a < toLex b := by
  have sorted := sortedBy_pairwise toLex places
  have apart : (sortedBy toLex places).Nodup := (sortedBy_perm toLex places).nodup_iff.mpr once
  refine (sorted.and apart).imp fun {a b} both => ?_
  exact lt_of_le_of_ne both.1 fun same => both.2 (toLex.injective same)

theorem joined_of_read {seasons : Dict Int Int} {mapped : Dict Place EpisodeCastMetadata}
    (valid : ValidCall call) (checked : checkCall call = .ok requested)
    (read : readSeasons answers requested = .ok seasons)
    (reads : readEpisodes answers requested seasons = .ok mapped) :
    Joined call answers (ascending mapped) := by
  obtain ⟨known, checked_known, requests⟩ := checkCall_valid valid
  cases checked.symm.trans checked_known
  obtain ⟨lists, listed, ⟨all, entries⟩, complete⟩ := readEpisodes_eq_ok.mp reads
  have requested_iff {place : Place} {ref : EpisodeRef} :
      requested.get? place = some ref ↔ ref ∈ call.episodes ∧ placeOf ref = place := by
    rw [← requested.mem_entries_iff, requests, List.mem_map]
    exact ⟨fun ⟨_, member, same⟩ => by cases same; exact ⟨member, rfl⟩,
      fun ⟨member, same⟩ => ⟨ref, member, by rw [same]⟩⟩
  have placed (place : Place) (cast : EpisodeCastMetadata) (found : mapped.get? place = some cast) :
      placeOf cast.episode = place := (requested_iff.mp (requested_of_entry entries found)).2
  have places := places_ascending placed
  have ascends : (ascending mapped).Pairwise fun a b =>
      toLex (placeOf a.episode) < toLex (placeOf b.episode) :=
    List.pairwise_map.mp (places ▸ ascending_strictly mapped.nodup_keys)
  refine ⟨?_, ascends, lists.flatten, ⟨requested, seasons, lists, checked, read, listed, rfl⟩, ?_⟩
  · have once : ((ascending mapped).map fun cast => cast.episode).Nodup :=
      List.pairwise_map.mpr (ascends.imp fun before same => by rw [same] at before; exact lt_irrefl _ before)
    refine (List.perm_ext_iff_of_nodup once valid.distinct.of_map).mpr fun ref => ?_
    rw [List.mem_map]
    constructor
    · rintro ⟨cast, member, rfl⟩
      obtain ⟨place, found⟩ := mem_ascending.mp member
      exact (requested_iff.mp (requested_of_entry entries found)).1
    · intro member
      have wanted := requested_iff.mpr ⟨member, rfl⟩
      obtain ⟨cast, found⟩ := Dict.get?_of_mem_keys (complete _ (Dict.mem_keys_of_get? wanted))
      refine ⟨cast, mem_ascending.mpr ⟨_, found⟩, ?_⟩
      have same := (requested_of_entry entries found).symm.trans wanted
      exact Option.some.inj same
  · intro cast member
    obtain ⟨place, found⟩ := mem_ascending.mp member
    have wanted := requested_of_entry entries found
    rw [placed place cast found]
    have once := mapped.nodup_keys
    rw [Dict.keys, entries] at once
    rw [← mapped.mem_entries_iff, entries] at found
    exact only_item all once (Dict.mem_keys_of_get? wanted) found

/-- The steps of a fetch that succeeds. -/
theorem fetch_eq_ok {assetAt fetchedAt : DateTime} {metadata : FetchedSeriesMetadata} :
    fetch call answers assetAt fetchedAt = .ok metadata ↔
      ∃ requested shown title canonicalUrl poster regularCast seasons mapped,
        checkCall call = .ok requested ∧
        readShow call answers = .ok (shown, title, canonicalUrl) ∧
        posterOf shown canonicalUrl assetAt = .ok poster ∧ readCast answers = .ok regularCast ∧
        readSeasons answers requested = .ok seasons ∧
        readEpisodes answers requested seasons = .ok mapped ∧
        metadata = ⟨TVMAZE_PROVIDER_NAME, call.providerShowId, title, canonicalUrl, poster,
          regularCast, ascending mapped, fetchedAt, TVMAZE_ATTRIBUTION, TVMAZE_LICENSE_NAME,
          TVMAZE_LICENSE_URL⟩ := by
  unfold fetch
  simp only [bind_eq_ok, Prod.exists]
  constructor
  · rintro ⟨requested, checked, shown, title, canonicalUrl, shows, poster, pictured, regularCast,
      credited, seasons, read, mapped, reads, same⟩
    cases same
    exact ⟨requested, shown, title, canonicalUrl, poster, regularCast, seasons, mapped, checked,
      shows, pictured, credited, read, reads, rfl⟩
  · rintro ⟨requested, shown, title, canonicalUrl, poster, regularCast, seasons, mapped, checked,
      shows, pictured, credited, read, reads, rfl⟩
    exact ⟨requested, checked, shown, title, canonicalUrl, shows, poster, pictured, regularCast,
      credited, seasons, read, mapped, reads, rfl⟩

/-- The metadata that a fetch returns joins the requested episodes. -/
theorem joined_of_fetch {assetAt fetchedAt : DateTime} {metadata : FetchedSeriesMetadata}
    (valid : ValidCall call) (fetched : fetch call answers assetAt fetchedAt = .ok metadata) :
    Joined call answers metadata.episodes := by
  obtain ⟨requested, shown, title, canonicalUrl, poster, regularCast, seasons, mapped, checked, -, -,
    -, read, reads, rfl⟩ := fetch_eq_ok.mp fetched
  exact joined_of_read valid checked read reads

end Joining

section Independence

/-- A well formed item at a position that is not wanted. -/
def elsewhere {α : Type} [DecidableEq α] (position : List (String × Json) → Except Raised (Option α))
    (wanted : List α) : Json → Bool
  | .obj item =>
      match position item with
      | .ok place => place.all fun there => there ∉ wanted
      | .error _ => false
  | _ => false

def seasonElsewhere (call : FetchCall) : Json → Bool :=
  elsewhere (fun season => seasonNumber (field season "number"))
    (call.episodes.map fun episode => episode.position.seasonNumber)

def episodeElsewhere (call : FetchCall) : Json → Bool :=
  elsewhere numbered (call.episodes.map placeOf)

/-- Answers that differ in the order of a list and in items elsewhere. -/
def SameList (elsewhere : Json → Bool) (one other : Except String Json) : Prop :=
  one = other ∨ ∃ items others, one = .ok (.arr items) ∧ other = .ok (.arr others) ∧
    (items.filter fun raw => !elsewhere raw).Perm (others.filter fun raw => !elsewhere raw)

/-- The same answers but for the order of the seasons and of the episodes, and for well formed items
at positions that were not requested. -/
structure SameAnswers (call : FetchCall) (answers others : Answers) : Prop where
  ofShow : answers.showAnswer = others.showAnswer
  ofCast : answers.castAnswer = others.castAnswer
  ofSeasons : SameList (seasonElsewhere call) answers.seasonsAnswer others.seasonsAnswer
  ofEpisodes : ∀ episode ∈ call.episodes, ∀ seasonId, SameList (episodeElsewhere call)
    (answers.episodesAnswer episode.position.seasonNumber seasonId)
    (others.episodesAnswer episode.position.seasonNumber seasonId)

theorem SameList.symm {elsewhere : Json → Bool} {one other : Except String Json}
    (same : SameList elsewhere one other) : SameList elsewhere other one := by
  rcases same with rfl | ⟨items, others, left, right, perm⟩
  · exact Or.inl rfl
  · exact Or.inr ⟨others, items, right, left, perm.symm⟩

theorem SameAnswers.symm {call : FetchCall} {answers others : Answers}
    (same : SameAnswers call answers others) : SameAnswers call others answers :=
  ⟨same.ofShow.symm, same.ofCast.symm, same.ofSeasons.symm, fun episode member seasonId =>
    (same.ofEpisodes episode member seasonId).symm⟩

/-- A list that can be taken in one answer can be taken in the other. -/
theorem SameList.items {elsewhere : Json → Bool} {one other : Except String Json}
    (same : SameList elsewhere one other) {items : List Json} (given : one = .ok (.arr items)) :
    ∃ others, other = .ok (.arr others) ∧
      (items.filter fun raw => !elsewhere raw).Perm (others.filter fun raw => !elsewhere raw) := by
  rcases same with equal | ⟨known, others, left, right, perm⟩
  · exact ⟨items, equal ▸ given, List.Perm.refl _⟩
  · rw [left] at given
    cases given
    exact ⟨others, right, perm⟩

theorem elsewhere_eq_true {α : Type} [DecidableEq α]
    {position : List (String × Json) → Except Raised (Option α)} {wanted : List α} {raw : Json}
    (away : elsewhere position wanted raw = true) : ∃ item place, raw = .obj item ∧
      position item = .ok place ∧ ∀ there ∈ place, there ∉ wanted := by
  cases raw with
  | obj item =>
      cases found : position item with
      | error error => simp [elsewhere, found] at away
      | ok place =>
          refine ⟨item, place, rfl, found, fun there member => ?_⟩
          simp only [elsewhere, found] at away
          cases member
          simpa using away
  | _ => cases away

variable {call : FetchCall} {requested : Dict Place EpisodeRef}
  (requests : requested.entries = call.episodes.map fun episode => (placeOf episode, episode))
include requests

theorem mem_requestedSeasons {number : Int} : number ∈ requestedSeasons requested ↔
    ∃ episode ∈ call.episodes, episode.position.seasonNumber = number := by
  unfold requestedSeasons
  rw [mem_sortedBy, List.mem_dedup, Dict.keys, requests, List.map_map, List.map_map, List.mem_map]
  rfl

theorem season_skipped {raw : Json} (away : (!seasonElsewhere call raw) = false) :
    readSeason (requestedSeasons requested) raw = some none := by
  rw [Bool.not_eq_false'] at away
  obtain ⟨season, place, rfl, located, apart⟩ := elsewhere_eq_true away
  refine readLocated_eq_some_none.mpr ?_
  unfold locateSeason
  rw [mapping_eq_ok.mpr rfl, ok_bind, located, ok_bind]
  cases place with
  | none => rfl
  | some number =>
      have other : number ∉ requestedSeasons requested := by
        rw [mem_requestedSeasons requests]
        rintro ⟨episode, member, same⟩
        exact apart number rfl (List.mem_map.mpr ⟨episode, member, same⟩)
      exact if_neg other

variable [UrlText]

theorem episode_skipped {raw : Json} (away : (!episodeElsewhere call raw) = false) :
    readEpisode requested raw = some none := by
  rw [Bool.not_eq_false'] at away
  obtain ⟨episode, place, rfl, located, apart⟩ := elsewhere_eq_true away
  refine readLocated_eq_some_none.mpr ?_
  unfold locateEpisode
  rw [mapping_eq_ok.mpr rfl, ok_bind, located, ok_bind]
  cases place with
  | none => rfl
  | some place =>
      have unknown : requested.get? place = none := by
        rw [Dict.get?_eq_none_iff, Dict.keys, requests, List.map_map]
        exact apart place rfl
      dsimp only
      rw [unknown]
      rfl

variable {answers others : Answers}

omit [UrlText] in
theorem readSeasons_same (same : SameAnswers call answers others) {seasons : Dict Int Int}
    (read : readSeasons answers requested = .ok seasons) : ∃ known,
      readSeasons others requested = .ok known ∧ known.entries.Perm seasons.entries := by
  obtain ⟨items, answered, ran, complete⟩ := readSeasons_eq_ok.mp read
  obtain ⟨listed, answered_others, perm⟩ := same.ofSeasons.items answered
  obtain ⟨known, ran_others, entries⟩ := (collects_addSeason _).loop_perm
    (fun raw => season_skipped requests) perm ran
  refine ⟨known, readSeasons_eq_ok.mpr ⟨listed, answered_others, ran_others, ?_⟩, entries⟩
  exact fun number member => (entries.map Prod.fst).mem_iff.mpr (complete number member)

omit [UrlText] requests in
theorem itemsOf_eq_ok {seasons : Dict Int Int} {number : Int} {items : List Json} :
    itemsOf answers seasons number = .ok items ↔ ∃ seasonId, seasons.get? number = some seasonId ∧
      answers.episodesAnswer number seasonId = .ok (.arr items) := by
  unfold itemsOf
  simp only [bind_eq_ok, orRaise_eq_ok, get_eq_ok, array_eq_ok]
  constructor
  · rintro ⟨seasonId, found, document, answered, rfl⟩
    exact ⟨seasonId, found, answered⟩
  · rintro ⟨seasonId, found, answered⟩
    exact ⟨seasonId, found, _, answered, rfl⟩

omit [UrlText] in
theorem itemsOf_same (same : SameAnswers call answers others) {seasons known : Dict Int Int}
    (alike : ∀ number, known.get? number = seasons.get? number) {numbers : List Int}
    (wanted : ∀ number ∈ numbers, number ∈ requestedSeasons requested) {lists : List (List Json)}
    (listed : numbers.mapM (itemsOf answers seasons) = .ok lists) : ∃ listings,
      numbers.mapM (itemsOf others known) = .ok listings ∧
        (lists.flatten.filter fun raw => !episodeElsewhere call raw).Perm
          (listings.flatten.filter fun raw => !episodeElsewhere call raw) := by
  induction numbers generalizing lists with
  | nil =>
      cases listed
      exact ⟨[], rfl, List.Perm.refl _⟩
  | cons number rest ih =>
      rw [List.mapM_cons] at listed
      obtain ⟨items, first, later⟩ := (bind_eq_ok _).mp listed
      obtain ⟨lists, tail, whole⟩ := (bind_eq_ok _).mp later
      cases whole
      obtain ⟨here, there⟩ := List.forall_mem_cons.mp wanted
      obtain ⟨listings, tail_others, perm⟩ := ih there tail
      obtain ⟨seasonId, found, answered⟩ := itemsOf_eq_ok.mp first
      obtain ⟨episode, member, rfl⟩ := (mem_requestedSeasons requests).mp here
      obtain ⟨offered, answered_others, perm_first⟩ :=
        (same.ofEpisodes episode member seasonId).items answered
      have first_others := itemsOf_eq_ok.mpr ⟨seasonId, (alike _).trans found, answered_others⟩
      refine ⟨offered :: listings, by rw [List.mapM_cons, first_others, ok_bind, tail_others]; rfl, ?_⟩
      rw [List.flatten_cons, List.flatten_cons, List.filter_append, List.filter_append]
      exact perm_first.append perm

theorem readEpisodes_same (same : SameAnswers call answers others) {seasons known : Dict Int Int}
    (alike : ∀ number, known.get? number = seasons.get? number)
    {mapped : Dict Place EpisodeCastMetadata}
    (reads : readEpisodes answers requested seasons = .ok mapped) : ∃ found,
      readEpisodes others requested known = .ok found ∧ found.entries.Perm mapped.entries := by
  obtain ⟨lists, listed, collected, complete⟩ := readEpisodes_eq_ok.mp reads
  obtain ⟨listings, listed_others, perm⟩ :=
    itemsOf_same requests same alike (fun number member => member) listed
  obtain ⟨found, ran, entries⟩ := (collects_addEpisode requested).loop_perm
    (fun raw => episode_skipped requests) perm ((collects_addEpisode requested).loop_ok.mpr collected)
  refine ⟨found, readEpisodes_eq_ok.mpr
    ⟨listings, listed_others, (collects_addEpisode requested).loop_ok.mp ran, ?_⟩, entries⟩
  exact fun place member => (entries.map Prod.fst).mem_iff.mpr (complete place member)

omit requests in
theorem ascending_eq_of_perm {one other : Dict Place EpisodeCastMetadata}
    (perm : one.entries.Perm other.entries) : ascending one = ascending other := by
  have keys : sortedBy toLex one.keys = sortedBy toLex other.keys :=
    sortedBy_eq (one.nodup_keys.map toLex.injective) (other.nodup_keys.map toLex.injective)
      fun place => (perm.map Prod.fst).mem_iff
  unfold ascending
  rw [keys]
  exact List.filterMap_congr fun place _ => Dict.get?_eq_of_perm perm place

omit requests in
/-- What a fetch returns it returns for answers that are the same. -/
theorem fetch_same (valid : ValidCall call) (same : SameAnswers call answers others)
    {assetAt fetchedAt : DateTime} {metadata : FetchedSeriesMetadata}
    (fetched : fetch call answers assetAt fetchedAt = .ok metadata) :
    fetch call others assetAt fetchedAt = .ok metadata := by
  obtain ⟨requested, shown, title, canonicalUrl, poster, regularCast, seasons, mapped, checked, shows,
    pictured, credited, read, reads, rfl⟩ := fetch_eq_ok.mp fetched
  obtain ⟨other, checked_other, requests⟩ := checkCall_valid valid
  cases checked.symm.trans checked_other
  obtain ⟨known, read_others, alike⟩ := readSeasons_same requests same read
  obtain ⟨found, reads_others, perm⟩ :=
    readEpisodes_same requests same (Dict.get?_eq_of_perm alike) reads
  refine fetch_eq_ok.mpr ⟨requested, shown, title, canonicalUrl, poster, regularCast, known, found,
    checked, ?_, pictured, ?_, read_others, reads_others, ?_⟩
  · unfold readShow at shows ⊢
    rw [← same.ofShow]
    exact shows
  · unfold readCast at credited ⊢
    rw [← same.ofCast]
    exact credited
  · rw [ascending_eq_of_perm perm]

end Independence

/-- A fetch that is all or nothing: it raises errors of the provider alone, what it returns joins the
requested episodes, and it returns the same for answers that are the same. -/
structure AllOrNothing [UrlText] (call : FetchCall) (answers : Answers)
    (assetAt fetchedAt : DateTime) : Prop where
  raises : Raises IsProviderError (fetch call answers assetAt fetchedAt)
  joined : ∀ metadata, fetch call answers assetAt fetchedAt = .ok metadata →
    Joined call answers metadata.episodes
  independent : ∀ others, SameAnswers call answers others → ∀ metadata,
    fetch call answers assetAt fetchedAt = .ok metadata ↔
      fetch call others assetAt fetchedAt = .ok metadata

/-- A fetch is all or nothing exactly where the addresses that it reads outside a credit can be
parsed. -/
theorem allOrNothing_iff [UrlText] {call : FetchCall} (valid : ValidCall call) (answers : Answers)
    (assetAt fetchedAt : DateTime) :
    AllOrNothing call answers assetAt fetchedAt ↔ AddressesParse call answers assetAt := by
  constructor
  · intro whole
    exact (raises_fetch valid).mp whole.raises
  · intro parse
    refine ⟨(raises_fetch valid).mpr parse, fun metadata => joined_of_fetch valid, ?_⟩
    intro others same metadata
    exact ⟨fetch_same valid same, fetch_same valid same.symm⟩

section Sample

attribute [local instance] UrlText.ascii

open CatalogueSamples

def pilotCall : FetchCall := ⟨82, "The Crossing", ⟨1⟩, [pilot]⟩

theorem pilotCall_valid : ValidCall pilotCall where
  identified := by decide
  titled := by decide
  nonempty := List.cons_ne_nil _ _
  ofSeries := by decide
  distinct := by decide

def showAt (url : String) : Json :=
  .obj [("id", .int 82), ("name", .str "The Crossing"), ("url", .str url)]

/-- A special without a number stands before the pilot. -/
def pilotAnswers (url : String) : Answers where
  showAnswer := .ok (showAt url)
  castAnswer := .ok (.arr [])
  seasonsAnswer := .ok (.arr [.obj [("id", .int 7), ("number", .int 1)]])
  episodesAnswer _ _ := .ok (.arr [.obj [("season", .int 1), ("number", .null)],
    .obj [("id", .int 9), ("name", .str "Pilot"), ("season", .int 1), ("number", .int 1),
      ("url", .str "https://www.tvmaze.com/episodes/9"),
      ("_embedded", .obj [("guestcast", .arr [])])]])

/-- The fetch of the pilot returns its metadata, and is all or nothing. -/
theorem allOrNothing_pilot :
    AddressesParse pilotCall (pilotAnswers "https://www.tvmaze.com/shows/82") ⟨.utc, 1⟩ ∧
      (∃ metadata, fetch pilotCall (pilotAnswers "https://www.tvmaze.com/shows/82") ⟨.utc, 1⟩
          ⟨.utc, 2⟩ = .ok metadata ∧
        metadata.episodes.map (fun cast => (cast.episode, cast.providerEpisodeId, cast.title)) =
          [(pilot, 9, "Pilot")]) ∧
      AllOrNothing pilotCall (pilotAnswers "https://www.tvmaze.com/shows/82") ⟨.utc, 1⟩
        ⟨.utc, 2⟩ := by
  have test : (fetch pilotCall (pilotAnswers "https://www.tvmaze.com/shows/82") ⟨.utc, 1⟩
      ⟨.utc, 2⟩).toOption.map (fun metadata => metadata.episodes.map fun cast =>
        (cast.episode, cast.providerEpisodeId, cast.title)) = some [(pilot, 9, "Pilot")] := by
    decide +kernel
  cases fetched : fetch pilotCall (pilotAnswers "https://www.tvmaze.com/shows/82") ⟨.utc, 1⟩
    ⟨.utc, 2⟩ with
  | error raised =>
      rw [fetched] at test
      cases test
  | ok metadata =>
      rw [fetched] at test
      have raises : Raises IsProviderError (fetch pilotCall
          (pilotAnswers "https://www.tvmaze.com/shows/82") ⟨.utc, 1⟩ ⟨.utc, 2⟩) := by
        rw [fetched]
        exact raises_ok metadata
      have parse := (raises_fetch pilotCall_valid).mp raises
      exact ⟨parse, ⟨metadata, rfl, Option.some.inj test⟩,
        (allOrNothing_iff pilotCall_valid _ _ _).mpr parse⟩

/-- The brackets of a host that are not closed raise an error that no handler translates. -/
theorem not_allOrNothing :
    ValidCall pilotCall ∧
      (∃ raised, fetch pilotCall (pilotAnswers "https://[") ⟨.utc, 1⟩ ⟨.utc, 2⟩ = .error raised ∧
        raised.kind = .valueError) ∧
      ¬AllOrNothing pilotCall (pilotAnswers "https://[") ⟨.utc, 1⟩ ⟨.utc, 2⟩ := by
  have escapes : fetch pilotCall (pilotAnswers "https://[") ⟨.utc, 1⟩ ⟨.utc, 2⟩ =
      .error (valueError "Invalid URL") := by decide
  refine ⟨pilotCall_valid, ⟨_, escapes, rfl⟩, fun whole => ?_⟩
  have translated := whole.raises _ escapes
  simp [IsProviderError, valueError] at translated

end Sample

end TVMazeSeriesMetadataProvider

end Cinegraph
