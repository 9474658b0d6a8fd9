import ChartLocker.Warm.Tasks

/-!
# Starting a warm and deleting a region

`start_warm` holds `config_update` from its first check to its answer; it can
still be dropped at the two other locks it waits for.  A deletion cancels the
jobs of its region and waits for them before it touches the cache.
-/

namespace ChartLocker.Warm

open Library Cache Catalog

variable {Document : Type}

inductive StartError where
  | unknownSource (id : String)
  | badBbox (message : String)
  | badZoom (minzoom maxzoom : Nat)
  | tooMany (total : Nat)
  | tooManyStyleSources (count : Nat)
  | allSourcesTimeDynamic (ids : String)
  | badRegion
  | shuttingDown
deriving DecidableEq, Repr

def badBbox (box : BBox) : Bool :=
  decide (box.west < -180 ∨ box.west > 180 ∨ box.east < -180 ∨
    box.east > 180 ∨ box.south < -90 ∨ box.south > 90 ∨ box.north < -90 ∨
    box.north > 90 ∨ box.west = box.east ∨
    (box.west > box.east ∧ box.west - box.east = 360) ∨
    box.south ≥ box.north)

def WarmRequest.bboxes (request : WarmRequest) : List BBox :=
  request.bbox :: request.additionalBbox.toList

/-- The locals of the loop which resolves the requested sources. -/
structure Resolution where
  total : Nat
  styleSources : Nat
  volatileSkipped : List String
  resolved : List ChartSource
  requestedIds : List String

section Start

variable (env : Environment Document) (service : Service Document)

/-- A style counts as one source at its registry maximum zoom. -/
def countedSource (known : ChartSource) : ChartSource :=
  if known.isStyle then
    { known with
      maxzoom := min (known.vectorMaxzoom.getD known.maxzoom) known.maxzoom }
  else
    known

def WarmRequest.resolve (request : WarmRequest) :
    List ChartSource → Resolution → Except StartError Resolution
  | [], found => .ok found
  | source :: rest, found =>
      if source.id ∈ found.requestedIds then
        request.resolve rest found
      else
        let seen := { found with
          requestedIds := source.id :: found.requestedIds }
        match service.app.sources.lookup source.id with
        | none => .error (.unknownSource source.id)
        | some known =>
            if known.isVolatile then
              request.resolve rest
                { seen with
                  volatileSkipped := seen.volatileSkipped ++ [source.id] }
            else
              let styles := seen.styleSources +
                if known.isStyle then 1 else 0
              if known.isStyle ∧ styles > Config.maxLearnedStyleEntries then
                .error (.tooManyStyleSources styles)
              else
                request.resolve rest
                  { seen with
                    resolved := seen.resolved ++ [known]
                    styleSources := styles
                    total := seen.total + tileCount env
                      [countedSource known] request.bboxes
                      request.minzoom request.maxzoom }

/-- The checks of `start_warm`, up to the reservation of the region. -/
def WarmRequest.validate (request : WarmRequest) :
    Except StartError (List ChartSource × Nat) :=
  if service.shutdownRequested then
    .error .shuttingDown
  else if request.sources = [] ∨ request.sources.length > maxWarmSources then
    .error (.unknownSource "no sources")
  else if request.minzoom > request.maxzoom then
    .error (.badZoom request.minzoom request.maxzoom)
  else if request.bboxes.any badBbox then
    .error (.badBbox "invalid bbox set")
  else if request.regionId.any fun id => !validRegionId id then
    .error .badRegion
  else
    match request.resolve env service request.sources ⟨0, 0, [], [], []⟩ with
    | .error error => .error error
    | .ok found =>
        if found.total = 0 then
          if found.volatileSkipped ≠ [] then
            .error (.allSourcesTimeDynamic
              (", ".intercalate found.volatileSkipped))
          else
            .error (.badBbox "bbox does not intersect the selected sources")
        else if found.total > warmTileHardCap then
          .error (.tooMany found.total)
        else
          .ok (found.resolved, found.total)

/-- The job which `start_warm` registers. -/
def WarmRequest.job (request : WarmRequest) (resolved : List ChartSource)
    (total : Nat) : WarmJob where
  sources := resolved
  bboxes := request.bboxes
  zmin := request.minzoom
  zmax := request.maxzoom
  regionId := request.regionId
  jobId := warmJobId service.bootId service.warmSeq
  configGeneration := service.app.configGeneration
  order := service.warmSeq
  total := total
  done := 0
  skipped := 0
  bytes := 0
  errors := 0
  state := .running
  cancel := false
  phase := .checking
  replacementCredit := 0
  expanded := []
  remaining := []
  set := []
  batch := []
  finalState := .done
  assetStaging := none

/-- The jobs which the registry counts as running. -/
def Service.runningJobs : Nat :=
  ((List.range service.warmSeq).filter fun order =>
    (service.warmJobs order).any fun job =>
      decide (job.state = .running)).length

def Start.step (start : Start) (event : Event) :
    Option (Option Start × Effect) :=
  let request := start.request
  match start.phase, event with
  | .waiting, .locked holder =>
      match request.validate env service with
      | .error _ => some (none, .quiet)
      | .ok (resolved, total) =>
          some (some { start with
            phase := .reserving holder resolved total }, .lockConfig holder)
  | .reserving holder resolved total, .go =>
      let reserved := { start with
        phase := .registering holder resolved total }
      match request.regionId with
      | some region =>
          if region ∈ service.activeWarmRegions then
            some (none, .unlockConfig holder)
          else
            some (some reserved, .reserveRegion region)
      | none => some (some reserved, .quiet)
  | .registering holder resolved total, .go =>
      if maxActiveWarmJobs ≤ service.runningJobs then
        some (none, .refuse holder request.regionId)
      else
        some (none, .register holder (request.job service resolved total))
  -- The mutex of a finished job is held, so that it counts as running.
  | .registering holder _ _, .refused =>
      some (none, .refuse holder request.regionId)
  | .waiting, .dropped => some (none, .quiet)
  | .reserving holder _ _, .dropped => some (none, .unlockConfig holder)
  -- The order of the job has been taken, and the region stays reserved.
  | .registering holder _ _, .dropped => some (none, .refuse holder none)
  | _, _ => none

end Start

def Deletion.step (service : Service Document) (deletion : Deletion)
    (event : Event) : Option (Option Deletion × Effect) :=
  let regionId := deletion.regionId
  match deletion.phase, event with
  | .cancelling, .go =>
      some (some { deletion with phase := .waiting }, .cancelRegion regionId)
  | .waiting, .go =>
      if regionId ∈ service.activeWarmRegions then
        none
      else
        some (some { deletion with phase := .deleting service.capBytes },
          .quiet)
  | .waiting, .refused => some (none, .quiet)
  | .deleting cap, .call _ _ =>
      some (some { deletion with phase := .evicting cap },
        .call (.deleteRegion regionId))
  | .deleting _, .failed => some (none, .quiet)
  | .evicting cap, .call _ _ => some (none, .call (.evictTo cap))
  | .evicting _, .failed => some (none, .quiet)
  | .cancelling, .dropped => some (none, .quiet)
  | .waiting, .dropped => some (none, .quiet)
  | _, _ => none

/-! ## Routes -/

/-- A request of a style asset. -/
inductive AssetRequest where
  | glyph (source fontstack : String) (rangeStart : Nat)
  | sprite (source : String) (variant : Nat)
  | vectorTile (source name : String) (z x y : Nat)

/-- The key of an asset and the check of its content, from the learned
style. -/
def AssetRequest.resolve (service : Service Document) :
    AssetRequest → Option (TileKey × StyleAssetKind)
  | .glyph source fontstack rangeStart =>
      (service.app.styleState.lookup source).bind fun learned =>
        if fontstack ∈ learned.content.fontstacks ∧ rangeStart % 256 = 0 ∧
            rangeStart ≤ 0x10ff00 then
          some (⟨glyphCacheSourceAt source fontstack learned.generation, 0,
            rangeStart, 0⟩, .glyph)
        else
          none
  | .sprite source variant =>
      (service.app.styleState.lookup source).bind fun learned =>
        (spriteVariants.find? fun entry => entry.1 == variant).map
          fun entry =>
            (⟨spriteCacheSourceAt source learned.generation, 0, variant, 0⟩,
              entry.2.2)
  | .vectorTile source name z x y =>
      (service.app.styleState.lookup source).bind fun learned =>
        let known := learned.content.sourceTiles.any fun entry =>
          entry.1 == name && !entry.2.isEmpty
        let maxzoom := ((learned.content.sourceMaxzoom.find? fun entry =>
          entry.1 == name).elim 24 Prod.snd)
        if known ∧ z ≤ maxzoom ∧ z ≤ 24 ∧ x < 2 ^ z ∧ y < 2 ^ z then
          some (⟨vectorCacheSourceAt source name learned.generation, z, x, y⟩,
            if name ∈ learned.content.rasterSources then
              .rasterTile
            else
              .vectorTile)
        else
          none

/-- A request which leaves the handler's own checks with work to do. -/
inductive Request where
  | tile (key : TileKey)
  | asset (request : AssetRequest)
  | delete (regionId : String)
  | warm (request : WarmRequest)

/-- A fill is spawned for a tile of an allowlisted source only. -/
def fillAllowed (service : Service Document) (key : TileKey) : Bool :=
  !service.shutdownRequested &&
    (service.app.sources.lookup key.source).any fun source =>
      expandsUpstream source key

def Request.worker (service : Service Document) :
    Request → Option Worker
  | .tile key =>
      if fillAllowed service key then
        some (.live ⟨key, .tile, false, .locking⟩)
      else
        none
  | .asset request =>
      (request.resolve service).map fun found =>
        .live ⟨found.1, .asset found.2, false, .locking⟩
  | .delete regionId =>
      if validRegionId regionId && !reservedRegion regionId then
        some (.deletion ⟨regionId, .cancelling⟩)
      else
        none
  | .warm request => some (.start ⟨request, .waiting⟩)

end ChartLocker.Warm
