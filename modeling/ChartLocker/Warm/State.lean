import ChartLocker.Catalog.Geometry
import ChartLocker.Config.Service
import ChartLocker.Warm.Content
import ChartLocker.Warm.Regions

/-!
# The state of the service

The parties which write the tile cache beside the configuration: warm jobs
with their tile and asset tasks, live fetches, region deletions and requests
for a warm.  A party is suspended at one of its await points; its record says
at which one and with which locals.  A call of the cache on a blocking thread
is an await point of its own, because other parties run before it.
-/

namespace ChartLocker.Warm

open Library Cache Catalog

def warmConcurrency : Nat := 3

def warmTileHardCap : Nat := 2000000

def maxActiveWarmJobs : Nat := 2

def maxWarmSources : Nat := 64

def warmBatch : Nat := 64

def warmBatchBytes : Int := 4 * 1024 * 1024

def glyphRangeEnd : Nat := 12288

def glyphRangeStep : Nat := 256

/-- `SPRITE_VARIANTS` with the kind of each. -/
def spriteVariants : List (Nat × String × StyleAssetKind) :=
  [(0, ".json", .spriteJson), (1, ".png", .spritePng),
    (2, "@2x.json", .spriteJson), (3, "@2x.png", .spritePng)]

def glyphCacheSourceAt (styleSource fontstack : String) (generation : Nat) :
    String :=
  "style:" ++ generation.repr ++ ":" ++ styleSource ++ ":glyphs:" ++ fontstack

def spriteCacheSourceAt (styleSource : String) (generation : Nat) : String :=
  "style:" ++ generation.repr ++ ":" ++ styleSource ++ ":sprite"

def vectorCacheSourceAt (styleSource name : String) (generation : Nat) :
    String :=
  "style:" ++ generation.repr ++ ":" ++ styleSource ++ ":" ++ name

/-- What the service calls and does not contain, and its knobs. -/
structure Environment (Document : Type)
    extends Config.Environment Document where
  negativeTtlSecs : Int
  maxBlobBytes : Nat
  tileForLngLat : ℚ → ℚ → Nat → Nat × Nat
  /-- The quoted SHA-256 of a body. -/
  strongEtag : Blob → String
  /-- `expand_glyph_url`. -/
  expandGlyphUrl : String → String → String → String
  isJsonObject : Blob → Bool

/-- An answer of the upstream whose body was read. -/
structure Response where
  status : Nat
  contentType : String
  validator : Option String
  body : Blob

/-- What a party meets when it goes on. -/
inductive Event where
  /-- The code up to the next await point. -/
  | go
  /-- The blocking call on the cache is performed. -/
  | call (disk : DiskSpace) (now : Int)
  /-- The blocking call or the fetch fails. -/
  | failed
  /-- A bounded table, a permit or a timeout turns the party away. -/
  | refused
  | answer (response : Response) (now : Int)
  /-- The poll beside a fetch sees the cancellation. -/
  | cancelled
  | panicked
  /-- The client disconnects, and the future of the handler is dropped. -/
  | dropped
  | learned (ok : Bool)
  | spawned (id : Nat)
  | joined (id : Nat)
  | empty
  | locked (holder : Nat)

/-! ## Tile and asset tasks -/

inductive Fetched where
  | tile (row : WarmRow)
  | negative (row : WarmRow)
  | skipped
  | capped
  | error
  | cancelled

inductive TilePhase where
  | pinning (recheck : Bool)
  | pinCalling (recheck : Bool) (budgets : PinBudgets)
  | locking
  | expanding
  | fetching
  | returning (result : Fetched)
  /-- `none` is a join error. -/
  | finished (result : Option Fetched)

/-- A task of `warm_one`; `held` says that it holds the flight of its key. -/
structure TileTask where
  order : Nat
  source : ChartSource
  key : TileKey
  target : Option String
  storage : Option String
  replacementCredit : Int
  held : Bool
  phase : TilePhase

inductive AssetStop where
  | capped
  | failed
deriving DecidableEq, Repr

structure AssetJob where
  key : TileKey
  url : String
  kind : StyleAssetKind
  allowed : List String

inductive AssetPhase where
  | starting
  | reading
  | pinning
  | pinCalling (budgets : PinBudgets)
  | fetching
  | returning (result : Except AssetStop (Option WarmRow))
  /-- `none` is a join error. -/
  | finished (result : Option (Except AssetStop (Option WarmRow)))

/-- A task of `warm_one_asset`. -/
structure AssetTask where
  order : Nat
  job : AssetJob
  region : String
  budget : Int
  phase : AssetPhase

/-! ## Live requests -/

/-- The route which reads a key: the tile route through `fill`, or a style
route through `cache_first_single_flight`. -/
inductive Route where
  | tile
  | asset (kind : StyleAssetKind)
deriving DecidableEq, Repr

/-- `stale` is the stored 200 which the route may still serve.  A store ends
with an eviction to `evict`, unless it only refreshes a validated row. -/
inductive LivePhase where
  | locking
  | rechecking
  | reading
  | fetching (stale : Option CachedTile)
  | storing (tile : CachedTile) (now : Int) (evict : Option Int)
  | evicting (cap : Int)
  | ending

structure LiveFetch where
  key : TileKey
  route : Route
  held : Bool
  phase : LivePhase

inductive DeletionPhase where
  | cancelling
  | waiting
  | deleting (cap : Int)
  | evicting (cap : Int)

/-- `delete_region_route`. -/
structure Deletion where
  regionId : String
  phase : DeletionPhase

structure WarmRequest where
  sources : List ChartSource
  bbox : BBox
  additionalBbox : Option BBox
  minzoom : Nat
  maxzoom : Nat
  regionId : Option String

inductive StartPhase where
  | waiting
  | reserving (holder : Nat) (resolved : List ChartSource) (total : Nat)
  | registering (holder : Nat) (resolved : List ChartSource) (total : Nat)

/-- `start_warm`; `holder` names its guard of `config_update`. -/
structure Start where
  request : WarmRequest
  phase : StartPhase

inductive Worker where
  | tile (task : TileTask)
  | asset (task : AssetTask)
  | live (fetch : LiveFetch)
  | deletion (deletion : Deletion)
  | start (start : Start)

/-! ## Warm jobs -/

inductive WarmState where
  | running
  | done
  | cancelled
  | capped
  | error
deriving DecidableEq, Repr

/-- Where the driver goes on after a flush. -/
inductive Resume where
  | draining
  | joining
  | counting
deriving DecidableEq, Repr

inductive AssetResume where
  | draining
  | joining
  | ending
deriving DecidableEq, Repr

inductive AssetStagePhase where
  | waiting
  | flagged
  | crediting
  | budgeting (credit : Int)
  | listing (rest : List String)
  | spawning
  | draining
  | flushing (rows : List WarmRow) (cap : Int) (resume : AssetResume)
  | joining
  | tail
  | ending
  | cleaning (reason : AssetStop)
  | releasing (reason : AssetStop)

/-- The locals of `stage_basemap_assets`. -/
structure AssetStage where
  budget : Int
  queue : List AssetJob
  set : List Nat
  batch : List WarmRow
  stop : Option AssetStop
  phase : AssetStagePhase

inductive RunPhase where
  | checking
  | crediting
  | expanding (rest : List ChartSource)
  | gating
  | enumerating
  | permitting
  | draining
  | flushing (rows : List WarmRow) (budget cap : Int) (resume : Resume)
  | joining
  | awaiting
  | tail
  | counting
  | assets (stage : AssetStage)
  | replacing
  | locking
  | guarded (holder : Nat)
  | promoting (holder : Nat) (cap regions position : Int)
  | unlocking (holder : Nat)
  | cleaning (stagings : List String)
  | finishing
  | releasing
  | finished

structure RunSpec where
  sources : List ChartSource
  bboxes : List BBox
  zmin : Nat
  zmax : Nat
  regionId : Option String
  jobId : String
  configGeneration : Nat

/-- The record of `warm_jobs`, with the specification and the locals of the
driver. -/
structure WarmJob extends RunSpec where
  order : Nat
  total : Nat
  done : Nat
  skipped : Nat
  bytes : Int
  errors : Nat
  state : WarmState
  cancel : Bool
  phase : RunPhase
  replacementCredit : Int
  /-- The sources after `expand_warm_sources`. -/
  expanded : List ChartSource
  /-- The tiles which the enumeration has not yielded yet. -/
  remaining : List (ChartSource × TileKey)
  set : List Nat
  batch : List WarmRow
  finalState : WarmState
  assetStaging : Option String

variable (Document : Type)

/-- The state which the parties share.  `app` holds the cache, the catalog,
the learned styles, the live knobs and `config_update`. -/
structure Service where
  app : Config.AppState Document
  bootId : String
  pastBootIds : List String
  shutdownRequested : Bool
  assetsWarming : Bool
  /-- The keys which a party works under, of the flights of `inflight_lock`.
  The map of weak references itself, with its dead entries and with the callers
  who wait, is `Inflight`; what it grants is all that a party sees of it. -/
  heldFlights : List String
  warmPermits : Nat
  activeWarmRegions : List String
  warmSeq : Nat
  warmJobs : Nat → Option WarmJob
  workers : Nat → Option Worker

variable {Document}

namespace Service

variable (service : Service Document)

def cache : TileCache :=
  service.app.cache

def capBytes : Int :=
  service.app.live.capBytes

/-- The cancel flag of a job, which its tasks share. -/
def jobCancelled (order : Nat) : Bool :=
  (service.warmJobs order).any WarmJob.cancel

def halted (order : Nat) : Bool :=
  service.jobCancelled order || service.shutdownRequested

end Service

/-- What one step of a party does to the shared state. -/
inductive Effect where
  | quiet
  | call (op : CacheOp)
  | lockFlight (key : TileKey)
  | freeFlight (key : Option TileKey)
  /-- A task ends: it frees the flight it holds and its permit. -/
  | endTask (key : Option TileKey)
  | spawn (id : Nat) (worker : Worker)
  | take (id : Nat)
  | holdAssets
  | freeAssets
  | lockConfig (holder : Nat)
  | unlockConfig (holder : Nat)
  | cancelRegion (regionId : String)
  | reserveRegion (regionId : String)
  | releaseRegion (regionId : Option String)
  /-- `start_warm` inserts its job and spawns the driver. -/
  | register (holder : Nat) (job : WarmJob)
  /-- `start_warm` finds too many running jobs. -/
  | refuse (holder : Nat) (regionId : Option String)

end ChartLocker.Warm
