import ChartLocker.Library.Machine
import ChartLocker.Library.KeyedTable
import ChartLocker.Cache.Tables
import ChartLocker.Cache.Operations
import ChartLocker.Cache.Aggregates
import ChartLocker.Cache.Steps
import ChartLocker.Cache.Pins
import ChartLocker.Cache.Promotion
import ChartLocker.Catalog.Source
import ChartLocker.Catalog.Geometry
import ChartLocker.Config.State
import ChartLocker.Config.Service
import ChartLocker.Config.Parity
import ChartLocker.Config.Rehydration
import ChartLocker.Config.Generations
import ChartLocker.Config.Namespace
import ChartLocker.Warm.Content
import ChartLocker.Warm.Regions
import ChartLocker.Warm.State
import ChartLocker.Warm.Tasks
import ChartLocker.Warm.Driver
import ChartLocker.Warm.Requests
import ChartLocker.Warm.Machine
import ChartLocker.Warm.Frames
import ChartLocker.Library.Json
import ChartLocker.Library.Text
import ChartLocker.Cache.Capacity
import ChartLocker.Config.Capacity
import ChartLocker.Config.Coherence
import ChartLocker.Style.Learner
import ChartLocker.Style.Durable
import ChartLocker.Style.Survival
import ChartLocker.Style.Keys
import ChartLocker.Warm.Serve
import ChartLocker.Library.Lease
import ChartLocker.Warm.Origins
import ChartLocker.Warm.Lifecycle
import ChartLocker.Cache.Joins
import ChartLocker.Warm.Download
import ChartLocker.Warm.Staging
import ChartLocker.Warm.Coverage
import ChartLocker.Warm.Promoted
import ChartLocker.Cache.Eviction
import ChartLocker.Cache.Batch
import ChartLocker.Library.Script
import ChartLocker.Cache.Statements
import ChartLocker.Cache.Failures
import ChartLocker.Library.Sweep
import ChartLocker.Catalog.Cover
import ChartLocker.Catalog.Enumeration
import ChartLocker.Warm.Counters
import ChartLocker.Warm.Snapshots
import ChartLocker.Warm.Revalidation
import ChartLocker.Warm.Volatile
import ChartLocker.Plugin.RetentionInForce
import ChartLocker.Plugin.Launches
import ChartLocker.Plugin.LockRecovery
import ChartLocker.Plugin.RegionTracking
import ChartLocker.Plugin.TrackingKept
import ChartLocker.Warm.Carried
import ChartLocker.Warm.Inflight
import ChartLocker.Warm.Admission
import ChartLocker.Style.Refresh
import ChartLocker.Cache.Chunks
import ChartLocker.Plugin.HostHealth
import ChartLocker.Plugin.MutualExclusion
import ChartLocker.Catalog.Grid
import ChartLocker.Warm.Acceptable
import ChartLocker.Catalog.Upstream
import ChartLocker.Library.Placeholder
import ChartLocker.Library.Url
import ChartLocker.Config.Validity
import ChartLocker.Config.Hosts
import ChartLocker.Library.Grammar
import ChartLocker.Style.SourceIds
import ChartLocker.Library.EntityTag
import ChartLocker.Warm.Validators
import ChartLocker.Warm.Registry
import ChartLocker.Plugin.Rescans
import ChartLocker.Plugin.RegionsLoader
import ChartLocker.Library.UrlPath
import ChartLocker.Plugin.ContainerTargets
import ChartLocker.Library.Trimming
import ChartLocker.Library.Doubles
import ChartLocker.Library.ByteRange
import ChartLocker.Plugin.RangeHeaders
import ChartLocker.Plugin.EntityTags
import ChartLocker.Plugin.ChartRegistry
import ChartLocker.Plugin.ArchiveRoute
import ChartLocker.Plugin.Discovery
import ChartLocker.Library.EcmaValues
import ChartLocker.Plugin.RegionsStore
import ChartLocker.Plugin.RegionsReload
import ChartLocker.Plugin.RegionChanges
import ChartLocker.Plugin.RegionsFile
import ChartLocker.Warm.Provenance
import ChartLocker.Plugin.StylePreservation
import ChartLocker.Warm.Accounts
import ChartLocker.Warm.Rejection
import ChartLocker.Geocode.Politeness
import ChartLocker.Egress.Guarded
import ChartLocker.Plugin.PositionWarming
