import Cinegraph.Common.Errors
import Cinegraph.Library.Text
import Cinegraph.Library.Uuid
import Mathlib.Data.Finset.Insert

/-! Episodes and the access scopes that admit them. -/

namespace Cinegraph

open Library

/-- `value and value.strip() == value` -/
def Trimmed (value : String) : Prop := value ≠ "" ∧ Text.strip value = value

instance (value : String) : Decidable (Trimmed value) := instDecidableAnd

structure EpisodePosition where
  seasonNumber : Int
  episodeNumber : Int
  season_pos : 1 ≤ seasonNumber
  episode_pos : 1 ≤ episodeNumber
  deriving DecidableEq

def EpisodePosition.make (seasonNumber episodeNumber : Int) : Except Raised EpisodePosition :=
  if hs : seasonNumber < 1 then .error (valueError "Season number must be a positive integer.")
  else if he : episodeNumber < 1 then
    .error (valueError "Episode number must be a positive integer.")
  else .ok ⟨seasonNumber, episodeNumber, Int.not_lt.mp hs, Int.not_lt.mp he⟩

@[simp] theorem EpisodePosition.make_self (p : EpisodePosition) :
    make p.seasonNumber p.episodeNumber = .ok p := by
  simp [make, Int.not_lt.mpr p.season_pos, Int.not_lt.mpr p.episode_pos]

theorem EpisodePosition.first_pos : (1 : Int) ≤ 1 := le_rfl

theorem EpisodePosition.second_pos : (1 : Int) ≤ 2 := by decide

structure EpisodeRef where
  seriesId : UUID
  seasonId : UUID
  episodeId : UUID
  position : EpisodePosition
  deriving DecidableEq

structure CorpusSeasonAccess where
  seriesId : UUID
  seasonNumber : Int
  season_pos : 1 ≤ seasonNumber
  deriving DecidableEq

def CorpusSeasonAccess.make (seriesId : UUID) (seasonNumber : Int) :
    Except Raised CorpusSeasonAccess :=
  if hs : seasonNumber < 1 then
    .error (valueError "Corpus-access season number must be positive.")
  else .ok ⟨seriesId, seasonNumber, Int.not_lt.mp hs⟩

@[simp] theorem CorpusSeasonAccess.make_self (s : CorpusSeasonAccess) :
    make s.seriesId s.seasonNumber = .ok s := by
  simp [make, Int.not_lt.mpr s.season_pos]

inductive CorpusAccessMode where
  | guest
  | authenticated
  deriving DecidableEq, Repr

structure CorpusAccessScope where
  mode : CorpusAccessMode
  revision : String
  allowedSeasons : Finset CorpusSeasonAccess
  unrestricted : Bool
  revision_trimmed : revision ≠ "" ∧ Text.strip revision = revision
  guest_restricted : ¬(mode = .guest ∧ unrestricted = true)
  guest_seasons : ¬(mode = .guest ∧ allowedSeasons = ∅)
  deriving DecidableEq

namespace CorpusAccessScope

/-- An authenticated scope may be unrestricted. -/
theorem authenticated_unrestricted :
    ¬(CorpusAccessMode.authenticated = .guest ∧ true = true) := by decide

theorem authenticated_seasons : ¬(CorpusAccessMode.authenticated = .guest ∧
    (∅ : Finset CorpusSeasonAccess) = ∅) := by decide

def make (mode : CorpusAccessMode) (revision : String)
    (allowedSeasons : Finset CorpusSeasonAccess) (unrestricted : Bool) :
    Except Raised CorpusAccessScope :=
  if hr : revision ≠ "" ∧ Text.strip revision = revision then
    if hg : mode = .guest ∧ unrestricted = true then
      .error (valueError "Guest corpus access cannot be unrestricted.")
    else if ha : mode = .guest ∧ allowedSeasons = ∅ then
      .error (valueError "Guest corpus access requires at least one allowed season.")
    else .ok ⟨mode, revision, allowedSeasons, unrestricted, hr, hg, ha⟩
  else .error (valueError "Corpus-access scope revision must be nonempty and trimmed.")

@[simp] theorem make_self (s : CorpusAccessScope) :
    make s.mode s.revision s.allowedSeasons s.unrestricted = .ok s := by
  rw [make, dif_pos s.revision_trimmed, dif_neg s.guest_restricted, dif_neg s.guest_seasons]

/-- The grant an episode asks for. -/
def season (episode : EpisodeRef) : CorpusSeasonAccess :=
  ⟨episode.seriesId, episode.position.seasonNumber, episode.position.season_pos⟩

def allowsEpisode (scope : CorpusAccessScope) (episode : EpisodeRef) : Bool :=
  scope.unrestricted || decide (season episode ∈ scope.allowedSeasons)

def allowsAll (scope : CorpusAccessScope) (episodes : List EpisodeRef) : Bool :=
  !episodes.isEmpty && episodes.all scope.allowsEpisode

end CorpusAccessScope

namespace CatalogueSamples

def pilot : EpisodeRef :=
  ⟨⟨1⟩, ⟨2⟩, ⟨3⟩, ⟨1, 1, EpisodePosition.first_pos, EpisodePosition.first_pos⟩⟩

theorem catalogue_trimmed : Trimmed "catalogue" := by decide

def wholeCorpus : CorpusAccessScope :=
  ⟨.authenticated, "catalogue", ∅, true, catalogue_trimmed,
    CorpusAccessScope.authenticated_unrestricted, CorpusAccessScope.authenticated_seasons⟩

theorem viewer_trimmed : Trimmed "viewer" := by decide

end CatalogueSamples

end Cinegraph
