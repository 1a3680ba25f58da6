import Geobench.Rollout.ResponseIds
import Geobench.Evaluation.CandidateLookups
import Geobench.Rewards.UsageLimits
import Geobench.Trainers.PromptIds
import Geobench.Engine.TaskPool
import Geobench.Trainers.MegatronAdvantages
import Geobench.Trainers.RequestInvariance
import Geobench.Trainers.AdvantageDistribution
import Geobench.Trainers.Resampling
import Geobench.Trainers.LossProbes
import Geobench.Trainers.ChunkAgreement
import Geobench.Trainers.ParallelAgreement
import Geobench.Dataset.StreamPacking
import Geobench.Rewards.SharedCache
import Geobench.Rewards.FormatErrors
import Geobench.Rewards.JsonAddress
import Geobench.Rollout.WeightTransfer
import Geobench.Template.RerankerColumns
import Geobench.Rollout.WeightSync
import Geobench.Dataset.IndexedReads
import Geobench.Tools.DomainTurns
import Geobench.Rewards.LocalGeocoding
import Geobench.Trainers.ShiftedLabels
import Geobench.Trainers.SharedPositions
import Geobench.Metrics.Accuracy
import Geobench.Metrics.MeanMetric
import Geobench.Metrics.GeometricMetric
import Geobench.Trainers.RandomSampler
import Geobench.Trainers.BatchParams
import Geobench.Checkpoint.SavedDirectory
import Geobench.Dataset.Dispatcher
import Geobench.Template.EmbeddingGroups
import Geobench.Dataset.RowPreprocessor
import Geobench.Rollout.GymScheduler
import Geobench.Rewards.RewardBatches
import Geobench.DataClean.ScoreOrder
import Geobench.DataClean.LlmJudge
import Geobench.Template.PackedSamples
import Geobench.Rollout.TipsSchedulers
import Geobench.Dataset.HubSelection
import Geobench.Dataset.SampledRows
import Geobench.Trainers.LengthContext
import Geobench.Loss.Infonce
import Geobench.Template.DynamicEos
import Geobench.Loss.LossScale
import Geobench.AgentTemplate.ActionInputs
import Geobench.Utils.Bounds
import Geobench.Trainers.SeqAllToAll
import Geobench.Trainers.AsyncRollout
import Geobench.Sampling.RayCalls
import Geobench.Utils.FindLayers
