import ChartLocker.Cache.Pins
import ChartLocker.Config.Generations
import ChartLocker.Warm.Driver
import ChartLocker.Warm.Requests

/-!
# The service machine

The configuration machine and the parties of the warm engine over one shared
state.  One label is one stretch of one party between two of its await points,
so that a run is an interleaving of all of them; the schedule, the clock, the
answers of the upstream and the failures are in the labels.
-/

namespace ChartLocker.Warm

open Library Cache Catalog

variable {Document : Type}

/-- `inflight_key`. -/
def inflightKey (key : TileKey) : String :=
  key.source ++ "/" ++ key.z.repr ++ "/" ++ key.x.repr ++ "/" ++ key.y.repr

namespace Service

variable (service : Service Document)

def setJob (order : Nat) (job : Option WarmJob) : Service Document :=
  { service with warmJobs := Function.update service.warmJobs order job }

def setWorker (id : Nat) (worker : Option Worker) : Service Document :=
  { service with workers := Function.update service.workers id worker }

def withApp (app : Config.AppState Document) : Service Document :=
  { service with app := app }

def withCache (cache : TileCache) : Service Document :=
  service.withApp { service.app with cache := cache }

def withoutFlight (key : Option TileKey) : Service Document :=
  { service with
    heldFlights := key.elim service.heldFlights fun held =>
      service.heldFlights.filter (· ≠ inflightKey held) }

def withoutRegion (regionId : Option String) : Service Document :=
  { service with
    activeWarmRegions := regionId.elim service.activeWarmRegions fun region =>
      service.activeWarmRegions.filter (· ≠ region) }

/-- `cancel_warm`. -/
def cancelJob (order : Nat) : Service Document :=
  service.setJob order ((service.warmJobs order).map fun job =>
    { job with cancel := true })

/-- The flags which `cancel_region_warms` sets. -/
def cancelRegion (regionId : String) : Service Document :=
  { service with
    warmJobs := fun order => (service.warmJobs order).map fun job =>
      if job.regionId = some regionId ∧ job.state = .running then
        { job with cancel := true }
      else
        job }

/-- `cancel_all_warms`. -/
def cancelAll : Service Document :=
  { service with
    shutdownRequested := true
    warmJobs := fun order => (service.warmJobs order).map fun job =>
      { job with cancel := true } }

def lockConfig (holder : Nat) : Option (Service Document) :=
  (Config.lockHolder service.app holder).map service.withApp

def unlockConfig (holder : Nat) : Option (Service Document) :=
  (Config.unlockHolder service.app holder).map service.withApp

/-- An effect is absent when a lock is not free or an id is in use. -/
def perform : Effect → Option (Service Document)
  | .quiet => some service
  | .call op => some (service.withCache (op.apply service.cache))
  | .lockFlight key =>
      if inflightKey key ∈ service.heldFlights then
        none
      else
        some { service with
          heldFlights := inflightKey key :: service.heldFlights }
  | .freeFlight key => some (service.withoutFlight key)
  | .endTask key =>
      some { service.withoutFlight key with
        warmPermits := service.warmPermits + 1 }
  | .spawn id worker =>
      if service.warmPermits = 0 ∨ (service.workers id).isSome then
        none
      else
        some { service.setWorker id (some worker) with
          warmPermits := service.warmPermits - 1 }
  | .take id => some (service.setWorker id none)
  | .holdAssets =>
      if service.assetsWarming then
        none
      else
        some { service with assetsWarming := true }
  | .freeAssets => some { service with assetsWarming := false }
  | .lockConfig holder => service.lockConfig holder
  | .unlockConfig holder => service.unlockConfig holder
  | .cancelRegion regionId => some (service.cancelRegion regionId)
  | .reserveRegion regionId =>
      some { service with
        activeWarmRegions := regionId :: service.activeWarmRegions }
  | .releaseRegion regionId => some (service.withoutRegion regionId)
  | .register holder job =>
      (service.unlockConfig holder).map fun unlocked =>
        { unlocked.setJob unlocked.warmSeq (some job) with
          warmSeq := unlocked.warmSeq + 1 }
  | .refuse holder regionId =>
      (service.unlockConfig holder).map fun unlocked =>
        { unlocked.withoutRegion regionId with
          warmSeq := unlocked.warmSeq + 1 }

end Service

section Machine

variable (env : Environment Document) (service : Service Document)

/-- One step of a party. -/
def Worker.step (worker : Worker) (event : Event) :
    Option (Option Worker × Effect) :=
  match worker with
  | .tile task => (task.step env service event).map fun next =>
      (some (.tile next.1), next.2)
  | .asset task => (task.step env service event).map fun next =>
      (some (.asset next.1), next.2)
  | .live fetch => (fetch.step env service event).map fun next =>
      (next.1.map .live, next.2)
  | .deletion pending => (pending.step service event).map fun next =>
      (next.1.map .deletion, next.2)
  | .start pending => (pending.step env service event).map fun next =>
      (next.1.map .start, next.2)

/-- The steps of the configuration machine which are its own: the parties of
this machine hold `config_update` and call the cache through their effects. -/
def externalLabel (app : Config.AppState Document) :
    Config.Label Document → Bool
  | .lockHolder _ | .unlockHolder _ | .cacheCall _ | .boot _ => false
  | .drop id =>
      match app.tasks id with
      | some .holder => false
      | _ => true
  | _ => true

/-- The calls of the sweeper, the clear route, the stats route and the
detached touches. -/
def backgroundCall : CacheOp → Bool
  | .touch _ _ | .sweepChunk _ | .clearChunk | .realRegionPinnedBytes => true
  | _ => false

variable (Document) in
inductive Label where
  | config (label : Config.Label Document)
  | boot (deferred evicted : Bool) (bootId : String)
  | drive (order : Nat) (event : Event)
  | work (id : Nat) (event : Event)
  | request (id : Nat) (request : Request)
  | cancel (order : Nat)
  | shutdown
  | background (op : CacheOp)

/-- The process starts over the durable part of the state.  The statement of
the startup eviction may fail. -/
def Service.booted (deferred evicted : Bool) (bootId : String) :
    Service Document :=
  let app := service.app.booted env.toEnvironment deferred
  { app :=
      if evicted then
        { app with cache := app.cache.evictTo env.capBytes }
      else
        app
    bootId := bootId
    pastBootIds := service.bootId :: service.pastBootIds
    shutdownRequested := false
    assetsWarming := false
    heldFlights := []
    warmPermits := warmConcurrency
    activeWarmRegions := []
    warmSeq := 0
    warmJobs := fun _ => none
    workers := fun _ => none }

/-- The text of a version 4 UUID without hyphens, which no earlier boot was
given. -/
def freshBootId (bootId : String) : Bool :=
  decide (bootId.toList.length = 32) && bootId != service.bootId &&
    !service.pastBootIds.contains bootId

def step : Label Document → Option (Service Document)
  | .config label =>
      if externalLabel service.app label then
        (Config.step env.toEnvironment service.app label).map service.withApp
      else
        none
  | .boot deferred evicted bootId =>
      if freshBootId service bootId then
        some (service.booted env deferred evicted bootId)
      else
        none
  | .drive order event =>
      (service.warmJobs order).bind fun job =>
        (job.step env service event).bind fun next =>
          (service.setJob order (some next.1)).perform next.2
  | .work id event =>
      (service.workers id).bind fun worker =>
        (worker.step env service event).bind fun next =>
          (service.setWorker id next.1).perform next.2
  | .request id request =>
      if (service.workers id).isSome then
        none
      else
        (request.worker service).map fun worker =>
          service.setWorker id (some worker)
  | .cancel order => some (service.cancelJob order)
  | .shutdown => some service.cancelAll
  | .background op =>
      if backgroundCall op then
        some (service.withCache (op.apply service.cache))
      else
        none

/-- The first process over a database which no earlier process left staging
regions in. -/
def firstService (found : Tables) (deferred : Bool) (bootId : String) :
    Service Document :=
  { app := { Config.firstBoot env.toEnvironment with
      cache := TileCache.opened deferred found }
    bootId := bootId
    pastBootIds := []
    shutdownRequested := false
    assetsWarming := false
    heldFlights := []
    warmPermits := warmConcurrency
    activeWarmRegions := []
    warmSeq := 0
    warmJobs := fun _ => none
    workers := fun _ => none }

/-- Initially every membership names a stored and pinned tile, as every call
of the cache preserves. -/
def serviceMachine : Machine (Service Document) (Label Document) where
  initial service := ∃ found deferred bootId,
    found.JoinsPinned ∧
    (∀ entry ∈ found.regionTiles,
      startsWith entry.regionId stagingRegionPrefix = false) ∧
    bootId.toList.length = 32 ∧
    service = firstService env found deferred bootId
  step := step env

end Machine

/-- A deployment whose projection puts everything into one tile. -/
def sampleDeployment : Environment Nat where
  toEnvironment := Config.sampleEnvironment
  negativeTtlSecs := 3600
  maxBlobBytes := 1000000
  tileForLngLat := fun _ _ _ => (0, 0)
  strongEtag := fun body => body.length.repr
  expandGlyphUrl := fun template fontstack range =>
    template ++ "/" ++ fontstack ++ "/" ++ range
  isJsonObject := fun _ => true

def sampleBootId : String := "0123456789abcdef0123456789abcdef"

def sampleService : Service Nat :=
  firstService sampleDeployment Tables.empty false sampleBootId

theorem sampleService_initial :
    (serviceMachine sampleDeployment).initial sampleService := by
  refine ⟨Tables.empty, false, sampleBootId, ?_, ?_, by decide, rfl⟩
  · exact fun _ _ member => absurd member List.not_mem_nil
  · exact fun _ member => absurd member List.not_mem_nil

/-- A chart with one tile. -/
def sampleChart : ChartSource where
  id := "chart"
  title := "Chart"
  upstream := .xyz "https://charts.example/{z}/{x}/{y}.png"
  tileSize := 256
  minzoom := 0
  maxzoom := 0
  vectorMaxzoom := none
  bounds := none
  coverage := none
  maxAgeSeconds := none
  attribution := ""

def sampleRequest : WarmRequest where
  sources := [sampleChart]
  bbox := ⟨-1, -1, 1, 1⟩
  additionalBbox := none
  minzoom := 0
  maxzoom := 0
  regionId := some "harbour"

/-- A push of the chart. -/
def chartPush : List (Label Nat) :=
  (Config.acceptedPush 1
    { Config.sampleBody with sources := [sampleChart] }).map .config

end ChartLocker.Warm
