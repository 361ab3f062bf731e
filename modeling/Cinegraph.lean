import Cinegraph.AgentJobs.Completion
import Cinegraph.AgentJobs.Recovery
import Cinegraph.IngestionJobs.EnqueueOnce
import Cinegraph.IngestionJobs.InMemoryInvariant
import Cinegraph.Retrieval.BoundedWindow
import Cinegraph.SpeakerReview.DecisionSoundness
import Cinegraph.SpeakerReview.PrivateIoInvariant
import Cinegraph.SpeakerReview.Promotable
import Cinegraph.Transcripts.CorpusRetry
import Cinegraph.Transcripts.IndexReplacement
import Cinegraph.Graph.Models
import Cinegraph.Graph.QueryService
import Cinegraph.Graph.Readable
import Cinegraph.Retrieval.HybridSearch
import Cinegraph.Retrieval.SpoilerBarrier
import Cinegraph.Api.EventStream
import Cinegraph.Api.RateLimiter
import Cinegraph.Common.Hashing
import Cinegraph.Identity.Models
import Cinegraph.Identity.Presented
import Cinegraph.Library.CompactJson
import Cinegraph.MediaActions.Approvals
import Cinegraph.MediaActions.AtMostOnce
import Cinegraph.AgentJobs.ConversationQuery
import Cinegraph.AgentJobs.Fencing
import Cinegraph.AgentJobs.Ownership
import Cinegraph.AgentRuntime.ModelUsage
import Cinegraph.AgentRuntime.UsageAccounting
import Cinegraph.Graph.Extraction
import Cinegraph.Graph.ExtractionMerge
import Cinegraph.Graph.ExtractionOrder
import Cinegraph.Library.Alignment
import Cinegraph.Library.Collecting
import Cinegraph.Library.FileTree
import Cinegraph.Library.Greedy
import Cinegraph.Library.JsonWidth
import Cinegraph.Library.Keyed
import Cinegraph.Library.Spans
import Cinegraph.Library.Url
import Cinegraph.MediaActions.Retry
import Cinegraph.NetflixHistory.Agreement
import Cinegraph.PrivateCorpus.AllOrNothing
import Cinegraph.SeriesMetadata.AllOrNothing
import Cinegraph.SpeakerReview.Costs
import Cinegraph.SpeakerReview.FaultIsolation
import Cinegraph.SubtitleAlignment.Matching
import Cinegraph.SubtitleAlignment.Service
import Cinegraph.Transcripts.ChunkCoverage
import Cinegraph.Watching.Season
import Cinegraph.Graph.Acceptance
import Cinegraph.Graph.Answers
import Cinegraph.Graph.OwnReader
