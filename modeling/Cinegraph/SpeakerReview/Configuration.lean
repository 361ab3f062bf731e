import Cinegraph.Library.Json

/-!
The part of the speaker-review configuration that the modelled functions read. The
class itself checks nothing, so every value of its fields is a configuration.
-/

namespace Cinegraph.Library

/-- `a < b` on floats. -/
def FloatValue.lt : FloatValue → FloatValue → Bool
  | .finite a, .finite b => a < b
  | .infinity negative, .finite _ => negative
  | .finite _, .infinity negative => !negative
  | .infinity a, .infinity b => a && !b
  | .nan, _ | _, .nan => false

/-- `a >= b` on floats. -/
def FloatValue.ge : FloatValue → FloatValue → Bool
  | .finite a, .finite b => b ≤ a
  | .infinity negative, .finite _ => !negative
  | .finite _, .infinity negative => negative
  | .infinity a, .infinity b => !a || b
  | .nan, _ | _, .nan => false

end Cinegraph.Library

namespace Cinegraph.SpeakerReview

open Library

structure SpeakerReviewConfiguration where
  batchEndpoint : String
  batchMethod : String
  responseSchemaName : String
  customIdSeparator : String
  subtitleContextRadius : Int
  scriptMatchLimit : Int
  scriptContextRadius : Int
  adjudicationPassId : String
  finalReviewPassId : String
  primaryPassIds : List String
  consensusMinimumConfidence : FloatValue
  adjudicationMinimumConfidence : FloatValue
  finalReviewMinimumConfidence : FloatValue
  maxOutputTokens : Int
  adjudicationMaxOutputTokens : Int
  finalReviewMaxOutputTokens : Int
  estimatedCharactersPerToken : Int
  maximumEnqueuedInputTokensPerBatch : Int
  redactionPlaceholders : List String

def DEFAULT_SPEAKER_REVIEW_CONFIGURATION : SpeakerReviewConfiguration where
  batchEndpoint := "/v1/responses"
  batchMethod := "POST"
  responseSchemaName := "speaker_review_verdict"
  customIdSeparator := "::"
  subtitleContextRadius := 3
  scriptMatchLimit := 3
  scriptContextRadius := 2
  adjudicationPassId := "adjudication"
  finalReviewPassId := "final-review"
  primaryPassIds := ["primary-a", "primary-b"]
  -- the binary floats nearest to 0.97, 0.95 and 0.90
  consensusMinimumConfidence := .finite (4368491638549381 / 4503599627370496)
  adjudicationMinimumConfidence := .finite (4278419646001971 / 4503599627370496)
  finalReviewMinimumConfidence := .finite (8106479329266893 / 9007199254740992)
  maxOutputTokens := 320
  adjudicationMaxOutputTokens := 640
  finalReviewMaxOutputTokens := 1200
  estimatedCharactersPerToken := 3
  maximumEnqueuedInputTokensPerBatch := 1500000
  redactionPlaceholders := ["***", "- ***.", "--"]

end Cinegraph.SpeakerReview
