import Sreality.Autodedup.ClusterLocalityProperties
import Sreality.Autodedup.ApplyPlanProperties
import Sreality.Autodedup.ClusterOrderProperties
import Sreality.Autodedup.PartitionObjectiveProperties
import Sreality.Toolkit.PropertyUndoProperties
import Sreality.Autodedup.UnapplyProperties
import Sreality.Toolkit.GroupDetachProperties
import Sreality.Toolkit.PropertyRouting
import Sreality.Toolkit.SplitPreviewProperties
import Sreality.Scraper.RateLedgerProperties
import Sreality.Scraper.DetailQueueProperties
import Sreality.Scraper.GoneVerdictProperties
import Sreality.Scraper.WalkCycleProperties
import Sreality.Scraper.ListingWrite
import Sreality.Scraper.ListingWriteProperties
import Sreality.Scraper.Liveness
import Sreality.Scraper.LivenessProperties
import Sreality.Scripts.BrokerMerges
import Sreality.Scripts.BrokerMergesProperties
import Sreality.Scripts.BrokerQueue
import Sreality.Scripts.BrokerQueueProperties
import Sreality.Scripts.PropertySweep
import Sreality.Scripts.PropertySweepProperties
import Sreality.LocationData.DrainQueue
import Sreality.LocationData.DrainQueueProperties
import Sreality.LocationData.FullSweep
import Sreality.LocationData.FullSweepProperties
import Sreality.LocationData.Resolve
import Sreality.LocationData.BindProperties
import Sreality.LocationData.ResolveProperties
import Sreality.LocationData.SecondPassProperties
import Sreality.LocationData.CandidateProperties
import Sreality.LocationData.DisputeProperties
import Sreality.Autodedup.ComponentsProperties
import Sreality.Autodedup.ScoreChunksProperties
import Sreality.Autodedup.IncrementalStoreProperties
import Sreality.Autodedup.OverlayProperties
import Sreality.Autodedup.ContextRailProperties
import Sreality.Autodedup.CalibrationCutProperties
import Sreality.Autodedup.RtLease
import Sreality.Autodedup.RtLeaseProperties
import Sreality.LocationData.BodiesPass
import Sreality.LocationData.BodiesPassProperties
import Sreality.Toolkit.BrokerResolverProperties
import Sreality.Scraper.SharedFrontierProperties
import Sreality.Scraper.JobLeaseProperties
import Sreality.Scraper.JobRuns
import Sreality.Toolkit.ResolveSurvivorsProperties
import Sreality.Toolkit.PropertyAdvertsProperties
import Sreality.Toolkit.DispatchesProperties
import Sreality.Scraper.SanitizersProperties
import Sreality.Scraper.DetailDrain
import Sreality.Scraper.DetailDrainProperties
import Sreality.Autodedup.Decide
import Sreality.Autodedup.DecideProperties
import Sreality.Autodedup.Retrieval
import Sreality.Autodedup.ProbeTokensProperties
import Sreality.Autodedup.RetrievalProperties
import Sreality.Toolkit.CarrierProperties
import Sreality.Toolkit.CurationSplit
import Sreality.Toolkit.LiveDealsProperties
import Sreality.Toolkit.MergeOrderProperties
import Sreality.Foundation.Ranked
import Sreality.Scraper.ClaimReserveProperties
import Sreality.LocationData.Payloads
import Sreality.LocationData.PayloadsProperties
import Sreality.Scripts.PriceLineage
import Sreality.Scripts.PriceLineageProperties
import Sreality.LocationData.ReadingsPass
import Sreality.LocationData.ReadingsPassProperties
import Sreality.Scripts.PropertyDrain
import Sreality.Scripts.PropertyDrainProperties
import Sreality.Toolkit.BrokerQuestionsProperties
import Sreality.Toolkit.BrokerCopyProperties
import Sreality.Foundation.Json
import Sreality.Foundation.JsonText
import Sreality.Foundation.JsonTextProperties
import Sreality.LocationData.PayloadNorm
import Sreality.Foundation.Pointwise
import Sreality.LocationData.PayloadRules
import Sreality.LocationData.PayloadNormProperties
import Sreality.Scraper.JobRunsLedger
import Sreality.Scraper.JobRunsProperties
import Sreality.Scraper.JobProcess
import Sreality.Scraper.JobProcessProperties
import Sreality.Scraper.JobRunner
import Sreality.Scraper.JobRunnerLeases
import Sreality.Scraper.JobRunnerGuard
import Sreality.Scraper.JobRunnerProperties
