import Taql.BatchTransparency
import Taql.HeaderIsolation
import Taql.OperationSeparation
import Taql.ResultIsolation
import Taql.LegacyAgreement
import Taql.DocumentTransparency
import Taql.Validation
import Taql.Jit
import Taql.UntrustedOperations
import Taql.PollCoverage
import Taql.PollRemovals
import Taql.Context
import Taql.UpstreamTimeouts
import Taql.MergedExtensions
import Taql.ReadinessSafety
import Taql.ReadinessTable
import Taql.PrewarmedRequests
import Taql.StoreEvictions
import Taql.SchemaRotation
import Taql.BatchMembership
import Taql.SizeCap
import Taql.AdvertisedTimeouts
import Taql.PersistedQueries
import Taql.SchemaKeys
import Taql.MutatedFields
import Taql.DummyVariables
import Taql.ExecutionPrewarming
import Taql.InsecureHeaders
import Taql.ServiceOverrides
import Taql.DigestUpdates
import Taql.ClusterProgress
import Taql.SvcoRouting
import Taql.CacheStores
import Taql.RefreshSchedule
import Taql.SupergraphLoads
import Taql.ComposeBodies
import Taql.GatewayTokens
import Taql.SchemaSelection
import Taql.Configuration
import Taql.UntrustedResults
import Taql.ReadinessStages
