import ChartLocker.Warm.Tasks

/-!
# The warm driver

`run` of the warm engine: enumerate the tiles lazily, spawn one task for each,
drain finished tasks into a batch, flush full batches pinned under the staging
region, stage the style assets and promote both staging regions in one
transaction.
-/

namespace ChartLocker.Warm

open Library Cache Catalog

variable {Document : Type}

/-- `warm_batch_should_flush`. -/
def batchShouldFlush (batch : List WarmRow) : Bool :=
  decide (batch.length ≥ warmBatch) ||
    decide ((batch.map fun row => max row.tile.bytes 0).sum ≥ warmBatchBytes)

section Steps

variable (env : Environment Document) (service : Service Document)

/-! ## `stage_basemap_assets` -/

/-- The assets of one learned style. -/
def styleAssets (styleSource : String) (learned : Config.StyleState Document)
    (allowed : List String) : List AssetJob :=
  let glyphs := match learned.content.glyphs with
    | some template => learned.content.fontstacks.flatMap fun fontstack =>
        (List.range' 0 (glyphRangeEnd / glyphRangeStep) glyphRangeStep).map
          fun start =>
            { key := ⟨glyphCacheSourceAt styleSource fontstack
                learned.generation, 0, start, 0⟩
              url := env.expandGlyphUrl template fontstack
                (start.repr ++ "-" ++ (start + glyphRangeStep - 1).repr ++
                  ".pbf")
              kind := .glyph
              allowed := allowed }
    | none => []
  let sprites := match learned.content.spriteBase with
    | some base => spriteVariants.map fun variant =>
        { key := ⟨spriteCacheSourceAt styleSource learned.generation, 0,
            variant.1, 0⟩
          url := base ++ variant.2.1
          kind := variant.2.2
          allowed := allowed }
    | none => []
  glyphs ++ sprites

/-- How the stage goes on: at another await point, or back in the driver. -/
inductive AssetProgress where
  | going (stage : AssetStage)
  | staged
  | stopped (reason : AssetStop)

def AssetResume.phase : AssetResume → AssetStagePhase
  | .draining => .draining
  | .joining => .joining
  | .ending => .ending

def AssetResume.stopPhase : AssetResume → AssetStagePhase
  | .ending => .ending
  | _ => .joining

namespace AssetStage

def enter (stage : AssetStage) (phase : AssetStagePhase) : AssetStage :=
  { stage with phase := phase }

/-- Leave the loop with a reason, keeping an earlier one. -/
def stopAt (stage : AssetStage) (reason : AssetStop)
    (phase : AssetStagePhase) : AssetStage :=
  { stage with stop := some (stage.stop.getD reason), phase := phase }

/-- `accept_asset`, up to its flush. -/
def accept (stage : AssetStage) (cap : Int) (resume : AssetResume) :
    Option (Except AssetStop (Option WarmRow)) → AssetStage
  | some (.ok (some row)) =>
      let batch := stage.batch ++ [row]
      if batchShouldFlush batch then
        { stage with batch := [], phase := .flushing batch cap resume }
      else
        { stage with batch := batch, phase := resume.phase }
  | some (.ok none) => stage.enter resume.phase
  | some (.error reason) => stage.stopAt reason .joining
  | none => stage.stopAt .failed .joining

/-- A task of the set which has finished. -/
def finishedTask (id : Nat) :
    Option (Option (Except AssetStop (Option WarmRow))) :=
  match service.workers id with
  | some (.asset { phase := .finished result, .. }) => some result
  | _ => none

def step (job : WarmJob) (stage : AssetStage) (event : Event) :
    Option (AssetProgress × Effect) :=
  let staging := assetStagingRegion job.jobId
  let halted := job.cancel || service.shutdownRequested
  let going := fun (next : AssetStage) => some (AssetProgress.going next,
    Effect.quiet)
  match stage.phase, event with
  | .waiting, .go =>
      if service.assetsWarming = false then
        some (.going (stage.enter .flagged), .holdAssets)
      else if halted then
        some (.stopped .failed, .quiet)
      else
        going stage
  | .flagged, .go =>
      if halted then
        some (.stopped .failed, .freeAssets)
      else
        going (stage.enter .crediting)
  | .crediting, .call _ _ =>
      going (stage.enter (.budgeting
        (service.cache.tables.regionBytes basemapAssetsRegionId)))
  | .crediting, .failed => going (stage.enter (.budgeting 0))
  | .budgeting credit, .go =>
      going { stage with
        budget := replacementBudget service.app.live
          (some basemapAssetsRegionId) credit
        phase := .listing
          ((job.sources.filter ChartSource.isStyle).map ChartSource.id) }
  | .listing (source :: rest), .go =>
      match service.app.styleState.lookup source,
          (service.app.sources.lookup source).map ChartSource.upstream with
      | some learned, some (.style _ allowed) =>
          going { stage with
            queue := stage.queue ++ styleAssets env source learned allowed
            phase := .listing rest }
      | _, _ => some (.stopped .failed, .freeAssets)
  | .listing [], .go => going (stage.enter .spawning)
  | .spawning, .spawned id =>
      match stage.queue with
      | next :: rest =>
          some (.going { stage with
              queue := rest
              set := id :: stage.set
              phase := .draining },
            .spawn id (.asset
              { order := job.order
                job := next
                region := staging
                budget := stage.budget
                phase := .starting }))
      | [] => none
  | .spawning, .refused =>
      if stage.queue ≠ [] ∧ halted then
        going (stage.stopAt .failed .joining)
      else
        none
  | .spawning, .go =>
      if stage.queue = [] then going (stage.enter .joining) else none
  | .draining, .joined id =>
      if id ∈ stage.set then
        (finishedTask service id).map fun result =>
          (.going ({ stage with set := stage.set.filter (· ≠ id) }.accept
            service.capBytes .draining result), .take id)
      else
        none
  | .draining, .empty => going (stage.enter .spawning)
  | .flushing rows cap resume, .call disk now =>
      let outcome := (service.cache.putManyPinned disk rows stage.budget cap
        (some staging) now).1
      some (.going (if outcome.capped then
          stage.stopAt .capped resume.stopPhase
        else
          stage.enter resume.phase),
        .call (.putManyPinned disk rows stage.budget cap (some staging) now))
  | .flushing _ _ resume, .failed =>
      going (stage.stopAt .failed resume.stopPhase)
  | .joining, .joined id =>
      if id ∈ stage.set then
        (finishedTask service id).map fun result =>
          let rest := { stage with set := stage.set.filter (· ≠ id) }
          (.going (if stage.stop.isNone then
              rest.accept service.capBytes .joining result
            else
              rest.enter .joining), .take id)
      else
        none
  | .joining, .empty =>
      if stage.set = [] then going (stage.enter .tail) else none
  | .tail, .go =>
      if halted then
        going (stage.stopAt .failed .ending)
      else if stage.stop.isNone ∧ stage.batch ≠ [] then
        going { stage with
          batch := []
          phase := .flushing stage.batch service.capBytes .ending }
      else
        going (stage.enter .ending)
  | .ending, .go =>
      match stage.stop with
      | none => some (.staged, .freeAssets)
      | some reason => going (stage.enter (.cleaning reason))
  | .cleaning reason, .call _ _ =>
      some (.going (stage.enter (.releasing reason)),
        .call (.deleteRegion staging))
  | .cleaning reason, .failed => going (stage.enter (.releasing reason))
  | .releasing reason, .go => some (.stopped reason, .freeAssets)
  | _, _ => none

/-- The stage when the driver calls it. -/
def begun : AssetStage where
  budget := 0
  queue := []
  set := []
  batch := []
  stop := none
  phase := .waiting

end AssetStage

/-! ## `run` -/

/-- One sub-source of a learned style. -/
def subSource (source : ChartSource) (learned : Config.StyleState Document)
    (name template : String) : ChartSource :=
  let registryMax := source.vectorMaxzoom.getD source.maxzoom
  let native := (learned.content.sourceMaxzoom.find? fun entry =>
    entry.1 == name).elim registryMax Prod.snd
  { source with
    id := vectorCacheSourceAt source.id name learned.generation
    upstream := .xyz template
    maxzoom := min registryMax native
    vectorMaxzoom := none }

/-- The sub-sources of a learned style, `none` when it names no source. -/
def subSources (source : ChartSource)
    (learned : Config.StyleState Document) : Option (List ChartSource) :=
  if learned.content.sourceTiles = [] then
    none
  else
    some (learned.content.sourceTiles.filterMap fun entry =>
      entry.2.head?.map fun template =>
        subSource source learned entry.1 template)

/-- The tiles of one source, over the boxes one after the other. -/
def sourceTiles (source : ChartSource) (bboxes : List BBox)
    (zmin zmax : Nat) : List (ChartSource × TileKey) :=
  bboxes.flatMap fun bbox =>
    (tilesIter env.tileForLngLat source bbox zmin zmax).map fun tile =>
      (source, ⟨source.id, tile.1, tile.2.1, tile.2.2⟩)

def Resume.phase : Resume → RunPhase
  | .draining => .draining
  | .joining => .joining
  | .counting => .counting

namespace WarmJob

def enter (job : WarmJob) (phase : RunPhase) : WarmJob :=
  { job with phase := phase }

/-- The tiles which the driver enumerates. -/
def enumeration (job : WarmJob) : List (ChartSource × TileKey) :=
  job.expanded.flatMap fun source =>
    sourceTiles env source job.bboxes job.zmin job.zmax

/-- The region which the tiles are downloaded into. -/
def storage (job : WarmJob) : Option String :=
  job.regionId.map fun region => stagingRegion region job.jobId

def styleSourceIds (job : WarmJob) : List String :=
  (job.sources.filter ChartSource.isStyle).map ChartSource.id

/-- `run` returns early with an error. -/
def abort (job : WarmJob) : WarmJob :=
  { job with state := .error, phase := .releasing }

/-- A learn failed, or there is nothing to warm. -/
def abortExpansion (job : WarmJob) : WarmJob :=
  { job with errors := job.errors + 1 }.abort

/-- Leave the enumeration with a state. -/
def breakWith (job : WarmJob) (state : WarmState) : WarmJob :=
  { job with finalState := state, phase := .joining }

/-- Leave the enumeration, or go on joining, and cancel the other tasks. -/
def cancelWith (job : WarmJob) (state : WarmState) : WarmJob :=
  { job.breakWith state with cancel := true }

/-- `flush`, up to its blocking call. -/
def flush (job : WarmJob) (resume : Resume) (rows : List WarmRow) : WarmJob :=
  { job with
    batch := []
    phase := .flushing rows (replacementBudget service.app.live job.regionId
      job.replacementCredit) service.capBytes resume }

/-- `accumulate`, up to its flush. -/
def accumulate (job : WarmJob) (resume : Resume) : Fetched → WarmJob
  | .tile row | .negative row =>
      let batch := job.batch ++ [row]
      if batchShouldFlush batch then
        job.flush service resume batch
      else
        { job with batch := batch, phase := resume.phase }
  | .skipped =>
      { job with skipped := job.skipped + 1, phase := resume.phase }
  | .capped => job.cancelWith .capped
  | .error => { job with errors := job.errors + 1, phase := resume.phase }
  | .cancelled => job.cancelWith .cancelled

/-- The end of `flush`; only the tail flush ignores that it was capped. -/
def flushed (job : WarmJob) (resume : Resume) (outcome : PutManyOutcome) :
    WarmJob :=
  let counted := { job with
    done := job.done + outcome.stored
    bytes := job.bytes + outcome.bytesAdded }
  if outcome.capped then
    match resume with
    | .counting => { counted with finalState := .capped, phase := .counting }
    | _ => counted.cancelWith .capped
  else
    counted.enter resume.phase

/-- A task of the set which has finished. -/
def finishedTask (id : Nat) : Option (Option Fetched) :=
  match service.workers id with
  | some (.tile { phase := .finished result, .. }) => some result
  | _ => none

def withoutTask (job : WarmJob) (id : Nat) : WarmJob :=
  { job with set := job.set.filter (· ≠ id) }

/-- A finished task while tiles are still enumerated. -/
def drained (job : WarmJob) : Option Fetched → WarmJob
  | some fetched => job.accumulate service .draining fetched
  | none => { job with errors := job.errors + 1 }.cancelWith .error

/-- A finished task after the enumeration; results are dropped once the job
has failed. -/
def joinedTask (job : WarmJob) : Option Fetched → WarmJob
  | some fetched =>
      if job.finalState = .done then
        job.accumulate service .joining fetched
      else
        job.enter .joining
  | none => { job with errors := job.errors + 1 }.breakWith .error

/-- A finished download with errors is an error. -/
def checkErrors (job : WarmJob) : WarmJob :=
  if job.finalState = .done ∧ job.errors > 0 then
    { job with finalState := .error }
  else
    job

/-- The configuration has changed under a job which would be done. -/
def checkGeneration (job : WarmJob) : WarmJob :=
  if job.finalState = .done ∧
      service.app.configGeneration ≠ job.configGeneration then
    { job with finalState := .error }
  else
    job

/-- The checks of the counters after the tail flush. -/
def checkComplete (job : WarmJob) : WarmJob :=
  if job.finalState = .done ∧ job.done + job.skipped ≠ job.total then
    { job with finalState := .error }
  else
    job

def replacements (job : WarmJob) : List (String × String) :=
  (match job.storage, job.regionId with
    | some staging, some target => [(staging, target)]
    | _, _ => []) ++
  (job.assetStaging.toList.map fun staging =>
    (staging, basemapAssetsRegionId))

/-- The assets stopped short. -/
def assetsStopped (job : WarmJob) (reason : AssetStop) : WarmJob :=
  if job.cancel then
    { job with finalState := .cancelled, phase := .replacing }
  else
    match reason with
    | .capped => { job with finalState := .capped, phase := .replacing }
    | .failed =>
        { job with
          errors := job.errors + 1
          finalState := .error
          phase := .replacing }

/-- After the promotion, or instead of it. -/
def conclude (job : WarmJob) : WarmJob :=
  if job.finalState = .done then
    job.enter .finishing
  else
    job.enter (.cleaning (job.replacements.map Prod.fst))

def step (job : WarmJob) (event : Event) : Option (WarmJob × Effect) :=
  let going := fun (next : WarmJob) => some (next, Effect.quiet)
  match job.phase, event with
  | .checking, .go =>
      if service.app.configGeneration ≠ job.configGeneration then
        going job.abort
      else
        going (job.enter .crediting)
  | .crediting, .call _ _ =>
      going { job with
        replacementCredit :=
          job.regionId.elim 0 service.cache.tables.regionBytes
        phase := .expanding job.sources }
  | .crediting, .failed =>
      going { job with
        replacementCredit := 0
        phase := .expanding job.sources }
  | .expanding (source :: rest), .go =>
      if source.isStyle then
        none
      else
        going { job with
          expanded := job.expanded ++ [source]
          phase := .expanding rest }
  | .expanding (source :: rest), .learned ok =>
      if source.isStyle then
        match (service.app.styleState.lookup source.id).bind
            (subSources source) with
        | some subs =>
            if ok then
              going { job with
                expanded := job.expanded ++ subs
                phase := .expanding rest }
            else
              going job.abortExpansion
        | none => going job.abortExpansion
      else
        none
  | .expanding [], .go =>
      if job.expanded = [] then
        going job.abortExpansion
      else
        going (job.enter .gating)
  | .gating, .go =>
      let counted := { job with
        total := tileCount env job.expanded job.bboxes job.zmin job.zmax }
      if counted.total = 0 ∨ counted.total > warmTileHardCap then
        going counted.abort
      else
        going { counted with
          remaining := job.enumeration env
          phase := .enumerating }
  | .enumerating, .go =>
      if job.remaining = [] then
        going (job.enter .joining)
      else if service.app.configGeneration ≠ job.configGeneration then
        going (job.breakWith .error)
      else if job.cancel then
        going (job.breakWith .cancelled)
      else
        going (job.enter .permitting)
  | .permitting, .spawned id =>
      match job.remaining with
      | (source, key) :: rest =>
          some ({ job with
              remaining := rest
              set := id :: job.set
              phase := .draining },
            .spawn id (.tile
              { order := job.order
                source := source
                key := key
                target := job.regionId
                storage := job.storage
                replacementCredit := job.replacementCredit
                held := false
                phase := .pinning false }))
      | [] => none
  | .permitting, .refused =>
      if job.cancel then
        going (job.breakWith .cancelled)
      else if service.shutdownRequested then
        going (job.breakWith .error)
      else
        none
  | .draining, .joined id =>
      if id ∈ job.set then
        (finishedTask service id).map fun result =>
          ((job.withoutTask id).drained service result, .take id)
      else
        none
  | .draining, .empty => going (job.enter .enumerating)
  | .flushing rows budget cap resume, .call disk now =>
      some (job.flushed resume (service.cache.putManyPinned disk rows budget
          cap job.storage now).1,
        .call (.putManyPinned disk rows budget cap job.storage now))
  | .flushing _ _ _ resume, .failed =>
      going { job with errors := job.errors + 1, phase := resume.phase }
  | .joining, .go =>
      if job.cancel ∧ job.finalState = .done then
        going { job with finalState := .cancelled, phase := .awaiting }
      else
        going (job.enter .awaiting)
  | .awaiting, .joined id =>
      if id ∈ job.set then
        (finishedTask service id).map fun result =>
          ((job.withoutTask id).joinedTask service result, .take id)
      else
        none
  | .awaiting, .refused => going (job.enter .joining)
  | .awaiting, .empty =>
      if job.set = [] then going (job.enter .tail) else none
  | .tail, .go =>
      let checked := job.checkErrors
      if checked.finalState = .done ∧ checked.batch ≠ [] then
        going (checked.flush service .counting checked.batch)
      else
        going (checked.enter .counting)
  | .counting, .go =>
      let checked := job.checkErrors.checkComplete.checkGeneration service
      if checked.finalState = .done ∧ checked.styleSourceIds ≠ [] then
        going (checked.enter (.assets AssetStage.begun))
      else
        going (checked.enter .replacing)
  | .assets stage, event =>
      (stage.step env service job event).map fun progress =>
        (match progress.1 with
          | .going next => job.enter (.assets next)
          | .staged =>
              { job with
                assetStaging := some (assetStagingRegion job.jobId)
                phase := .replacing }
          | .stopped reason => job.assetsStopped reason, progress.2)
  | .replacing, .go =>
      let checked := job.checkGeneration service
      if checked.finalState = .done ∧ checked.replacements ≠ [] then
        going (checked.enter .locking)
      else
        going checked.conclude
  | .locking, .locked holder =>
      some (job.enter (.guarded holder), .lockConfig holder)
  | .guarded holder, .go =>
      let checked := job.checkGeneration service
      if checked.finalState = .done then
        let cap := max service.capBytes 0
        let regions := max (min service.app.live.regionsBudget cap) 0
        let position :=
          max (min service.app.live.positionWarmBudget regions) 0
        going (checked.enter (.promoting holder cap regions position))
      else
        going (checked.enter (.unlocking holder))
  | .promoting holder cap regions position, .call _ _ =>
      let realBudget := max (regions - position) 0
      let promoted := (service.cache.promoteStagedRegions job.replacements
        realBudget position cap).1
      some ({ job with
          finalState := if promoted then job.finalState else .capped
          phase := .unlocking holder },
        .call (.promoteStagedRegions job.replacements realBudget position
          cap))
  | .promoting holder _ _ _, .failed =>
      going { job with finalState := .error, phase := .unlocking holder }
  | .unlocking holder, .go => some (job.conclude, .unlockConfig holder)
  | .cleaning (staging :: rest), .call _ _ =>
      some (job.enter (.cleaning rest), .call (.deleteRegion staging))
  | .cleaning (_ :: rest), .failed => going (job.enter (.cleaning rest))
  | .cleaning [], .go => going (job.enter .finishing)
  | .finishing, .go =>
      going { job with state := job.finalState, phase := .releasing }
  | .releasing, .go =>
      some (job.enter .finished, .releaseRegion job.regionId)
  | _, _ => none

end WarmJob

end Steps

end ChartLocker.Warm
