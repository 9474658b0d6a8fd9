import ChartLocker.Warm.State

/-!
# Tasks and live requests

One step of a party other than a warm driver: its next record, `none` when it
is gone, and what it does to the shared state.  A step is absent when the
party does not wait for the event.
-/

namespace ChartLocker.Warm

open Library Cache Catalog

variable {Document : Type}

/-! ## Budgets -/

def effectiveBudget (live : Config.LiveKnobs) (regionId : Option String) :
    Int :=
  let raw :=
    if regionId = some positionWarmRegionId then
      live.positionWarmBudget
    else
      live.regionsBudget - live.positionWarmBudget
  max (min raw live.capBytes) 0

def replacementBudget (live : Config.LiveKnobs) (regionId : Option String)
    (credit : Int) : Int :=
  min (saturatingAddI64 (effectiveBudget live regionId)
    (max credit 0)) (max live.capBytes 0)

/-! ## Fetched rows -/

/-- The row of an accepted body, fetched at `now`. -/
def fetchedTile (env : Environment Document) (response : Response)
    (now : Int) : CachedTile where
  contentType := response.contentType
  strongEtag := env.strongEtag response.body
  upstreamValidator := response.validator
  status := 200
  fetchedAt := now
  lastAccess := now
  bytes := response.body.length
  blob := some response.body

/-- `valid_style_asset` of a stored row. -/
def validStoredAsset (env : Environment Document) (kind : StyleAssetKind)
    (tile : CachedTile) : Bool :=
  validStyleAsset env.isJsonObject kind tile.contentType
    (tile.blob.getD [])

def validFetchedAsset (env : Environment Document) (kind : StyleAssetKind)
    (response : Response) : Bool :=
  validStyleAsset env.isJsonObject kind response.contentType response.body

/-- The size and type checks of a fetched tile. -/
def acceptableTile (env : Environment Document) (response : Response) : Bool :=
  decide (response.body.length ≤ env.maxBlobBytes) &&
    acceptableContentType response.contentType

/-- `expand_upstream` builds a URL. -/
def expandsUpstream (source : ChartSource) (key : TileKey) : Bool :=
  !source.isStyle && decide (source.minzoom ≤ key.z ∧
    key.z ≤ source.maxzoom ∧ key.z < 64 ∧ key.x < 2 ^ key.z ∧
    key.y < 2 ^ key.z)

/-- What `warm_one` makes of an answer. -/
def warmAnswer (env : Environment Document) (key : TileKey)
    (response : Response) (now : Int) : Fetched :=
  if response.status = 200 then
    if acceptableTile env response then
      .tile ⟨key, fetchedTile env response now⟩
    else
      .error
  else if response.status = 404 ∨ response.status = 204 then
    .negative ⟨key, CachedTile.negative response.status now⟩
  else
    .error

theorem warmAnswer_eq_tile {env : Environment Document} {key : TileKey}
    {response : Response} {now : Int} {row : WarmRow} :
    warmAnswer env key response now = .tile row ↔
      response.status = 200 ∧ acceptableTile env response = true ∧
        row = ⟨key, fetchedTile env response now⟩ := by
  unfold warmAnswer
  split
  · next ok =>
    split
    · next accepted => simp [ok, accepted, eq_comm]
    · next rejected => simp [rejected]
  · next other =>
    split <;> simp [other]

/-- What `warm_one_asset` makes of an answer. -/
def warmAssetAnswer (env : Environment Document) (job : AssetJob)
    (response : Response) (now : Int) : Except AssetStop (Option WarmRow) :=
  if response.status = 200 then
    if validFetchedAsset env job.kind response then
      .ok (some ⟨job.key, fetchedTile env response now⟩)
    else
      .error .failed
  else if response.status = 404 ∨ response.status = 204 then
    .ok none
  else
    .error .failed

/-- The tiles of some sources over some boxes, as the caps count them. -/
def tileCount (env : Environment Document) (sources : List ChartSource)
    (bboxes : List BBox) (zmin zmax : Nat) : Nat :=
  (sources.flatMap fun source => bboxes.map fun bbox =>
    tileCountInBbox env.tileForLngLat source bbox zmin zmax).sum

section Steps

variable (env : Environment Document) (service : Service Document)

/-! ## `warm_one` -/

namespace TileTask

def enter (task : TileTask) (phase : TilePhase) : TileTask :=
  { task with phase := phase }

/-- The flight which the task holds. -/
def flight (task : TileTask) : Option TileKey :=
  if task.held then some task.key else none

/-- A pin which found nothing fresh: first take the flight, then fetch. -/
def missed (task : TileTask) (recheck : Bool) : TileTask :=
  task.enter (if recheck then .expanding else .locking)

def step (task : TileTask) (event : Event) : Option (TileTask × Effect) :=
  match task.phase, event with
  | .pinning recheck, .go =>
      some (task.enter (.pinCalling recheck
        { categoryBytes := replacementBudget service.app.live task.target
            task.replacementCredit
          physicalBytes := service.capBytes }), .quiet)
  | .pinCalling recheck budgets, .call _ now =>
      let outcome := (service.cache.pinIfFreshCapped task.key now
        env.freshSecs env.negativeTtlSecs budgets task.storage).1
      some (match outcome with
        | .pinned => task.enter (.returning .skipped)
        | .capped => task.enter (.returning .capped)
        | .missingOrStale => task.missed recheck,
        .call (.pinIfFreshCapped task.key now env.freshSecs
          env.negativeTtlSecs budgets task.storage))
  | .pinCalling recheck _, .failed => some (task.missed recheck, .quiet)
  | .locking, .refused => some (task.enter (.returning .error), .quiet)
  | .locking, .go =>
      some ({ task with held := true, phase := .pinning true },
        .lockFlight task.key)
  | .expanding, .go =>
      if expandsUpstream task.source task.key then
        some (task.enter .fetching, .quiet)
      else
        some (task.enter (.returning .error), .quiet)
  | .fetching, .answer response now =>
      some (task.enter (.returning (warmAnswer env task.key response now)),
        .quiet)
  | .fetching, .failed => some (task.enter (.returning .error), .quiet)
  | .fetching, .cancelled =>
      if service.halted task.order then
        some (task.enter (.returning .cancelled), .quiet)
      else
        none
  | .returning result, .go =>
      some ({ task with held := false, phase := .finished (some result) },
        .endTask task.flight)
  | .finished _, _ => none
  | _, .panicked =>
      some ({ task with held := false, phase := .finished none },
        .endTask task.flight)
  | _, _ => none

/-- What a task may return, and from where. -/
theorem returning_cases {env : Environment Document}
    {service : Service Document} {task next : TileTask} {event : Event}
    {effect : Effect} {result : Fetched}
    (stepped : task.step env service event = some (next, effect))
    (returning : next.phase = .returning result) :
    (∃ recheck budgets disk now,
      task.phase = .pinCalling recheck budgets ∧ event = .call disk now ∧
        ((result = .skipped ∧ (service.cache.pinIfFreshCapped task.key now
          env.freshSecs env.negativeTtlSecs budgets task.storage).1 =
            .pinned) ∨ result = .capped)) ∨
    (∃ response now, task.phase = .fetching ∧ event = .answer response now ∧
      result = warmAnswer env task.key response now) ∨
    result = .error ∨ result = .cancelled := by
  simp only [step, enter, missed] at stepped
  split at stepped
  · cases stepped; simp at returning
  · next recheck budgets disk now calling =>
    left
    refine ⟨recheck, budgets, disk, now, calling, rfl, ?_⟩
    cases stepped
    split at returning
    · next pinned =>
      cases returning
      exact .inl ⟨rfl, pinned⟩
    · cases returning
      exact .inr rfl
    · split at returning <;> cases returning
  · cases stepped
    dsimp only at returning
    split at returning <;> cases returning
  · cases stepped; cases returning; simp
  · cases stepped; cases returning
  · split at stepped
    · cases stepped; cases returning
    · cases stepped; cases returning; simp
  · next response now fetching =>
    cases stepped
    cases returning
    exact .inr (.inl ⟨response, now, fetching, rfl, rfl⟩)
  · cases stepped; cases returning; simp
  · split at stepped
    · cases stepped; cases returning; simp
    · contradiction
  · cases stepped; cases returning
  · contradiction
  · cases stepped; cases returning
  · contradiction

end TileTask

/-! ## `warm_one_asset` -/

namespace AssetTask

def enter (task : AssetTask) (phase : AssetPhase) : AssetTask :=
  { task with phase := phase }

/-- Fetch an asset which is not cached, from an allowed host. -/
def fetch (task : AssetTask) : AssetTask :=
  if env.styleUrlAllowed task.job.url task.job.allowed
      env.allowPrivateEgress then
    task.enter .fetching
  else
    task.enter (.returning (.error .failed))

/-- A cached row is pinned unless it is a 200 which the route would refuse. -/
def pinnable (task : AssetTask) : Bool :=
  (service.cache.get task.job.key).all fun tile =>
    decide (tile.status ≠ 200) || validStoredAsset env task.job.kind tile

def step (task : AssetTask) (event : Event) :
    Option (AssetTask × Effect) :=
  match task.phase, event with
  | .starting, .go =>
      if service.halted task.order then
        some (task.enter (.returning (.error .failed)), .quiet)
      else
        some (task.enter .reading, .quiet)
  | .reading, .call _ _ =>
      if task.pinnable env service then
        some (task.enter .pinning, .quiet)
      else
        some (task.fetch env, .quiet)
  | .reading, .failed => some (task.fetch env, .quiet)
  | .pinning, .go =>
      some (task.enter (.pinCalling
        { categoryBytes := task.budget
          physicalBytes := service.capBytes }), .quiet)
  | .pinCalling budgets, .call _ now =>
      let outcome := (service.cache.pinIfFreshCapped task.job.key now
        env.freshSecs env.negativeTtlSecs budgets (some task.region)).1
      some (match outcome with
        | .pinned => task.enter (.returning (.ok none))
        | .capped => task.enter (.returning (.error .capped))
        | .missingOrStale => task.fetch env,
        .call (.pinIfFreshCapped task.job.key now env.freshSecs
          env.negativeTtlSecs budgets (some task.region)))
  | .pinCalling _, .failed =>
      some (task.enter (.returning (.error .failed)), .quiet)
  | .fetching, .answer response now =>
      some (task.enter (.returning
        (warmAssetAnswer env task.job response now)), .quiet)
  | .fetching, .failed =>
      some (task.enter (.returning (.error .failed)), .quiet)
  | .fetching, .cancelled =>
      if service.halted task.order then
        some (task.enter (.returning (.error .failed)), .quiet)
      else
        none
  | .returning result, .go =>
      some (task.enter (.finished (some result)), .endTask none)
  | .finished _, _ => none
  | _, .panicked => some (task.enter (.finished none), .endTask none)
  | _, _ => none

end AssetTask

/-! ## Live fetches -/

namespace LiveFetch

def enter (fetch : LiveFetch) (phase : LivePhase) : LiveFetch :=
  { fetch with phase := phase }

def flight (fetch : LiveFetch) : Option TileKey :=
  if fetch.held then some fetch.key else none

/-- A stored 200 which the route may serve. -/
def servable (fetch : LiveFetch) (tile : CachedTile) : Bool :=
  match fetch.route with
  | .tile => isSafeCached200 tile
  | .asset kind =>
      decide (tile.status = 200) && validStoredAsset env kind tile

/-- The freshness window of the route: that of the source for a tile. -/
def freshWindow (fetch : LiveFetch) : Int :=
  match fetch.route with
  | .tile =>
      (service.app.sources.lookup fetch.key.source).elim env.freshSecs
        fun source => source.freshSecs env.freshSecs
  | .asset _ => env.freshSecs

/-- A row which answers the request without a fetch. -/
def servedFromCache (fetch : LiveFetch) (tile : CachedTile) (now : Int) :
    Bool :=
  (fetch.servable env tile &&
      decide (now - tile.fetchedAt < fetch.freshWindow env service)) ||
    (decide (tile.status ≠ 200) &&
      decide (now - tile.fetchedAt < env.negativeTtlSecs))

/-- `store_and_evict`, which reads the cap before its blocking call. -/
def store (fetch : LiveFetch) (tile : CachedTile) (now : Int) : LiveFetch :=
  fetch.enter (.storing tile now (some service.capBytes))

/-- The answers of the upstream to `fill`. -/
def fillAnswer (fetch : LiveFetch) (stale : Option CachedTile)
    (response : Response) (now : Int) : Option LiveFetch :=
  match stale with
  | some tile =>
      if response.status = 304 then
        some (fetch.enter (.storing
          { tile with fetchedAt := now, lastAccess := now } now none))
      else if response.status = 200 ∧ acceptableTile env response then
        some (fetch.store service (fetchedTile env response now) now)
      else
        none
  | none =>
      if response.status = 200 ∧ acceptableTile env response then
        some (fetch.store service (fetchedTile env response now) now)
      else if response.status = 404 ∨ response.status = 204 then
        some (fetch.store service
          (CachedTile.negative response.status now) now)
      else
        none

/-- The answers of the upstream to `fetch_asset_response`. -/
def assetAnswer (fetch : LiveFetch) (kind : StyleAssetKind)
    (stale : Option CachedTile) (response : Response) (now : Int) :
    Option LiveFetch :=
  if response.status = 304 then
    stale.map fun tile => fetch.store service
      { tile with fetchedAt := now, lastAccess := now } now
  else if response.status = 200 then
    if validFetchedAsset env kind response then
      some (fetch.store service (fetchedTile env response now) now)
    else
      none
  else if response.status = 404 ∨ response.status = 204 then
    some (fetch.store service (CachedTile.negative 404 now) now)
  else
    none

/-- After the write of a row. -/
def stored (fetch : LiveFetch) (evict : Option Int) : LiveFetch :=
  fetch.enter (evict.elim .ending .evicting)

/-- The party answers its client and frees its flight. -/
def ends (fetch : LiveFetch) : Option LiveFetch × Effect :=
  (none, .freeFlight fetch.flight)

/-- Go on with a record, or answer the client. -/
def orEnds (fetch : LiveFetch) (next : Option LiveFetch) :
    Option LiveFetch × Effect :=
  match next with
  | some going => (some going, .quiet)
  | none => fetch.ends

def step (fetch : LiveFetch) (event : Event) :
    Option (Option LiveFetch × Effect) :=
  match fetch.phase, event with
  | .locking, .refused => some fetch.ends
  | .locking, .go =>
      some (some { fetch with held := true, phase := .rechecking },
        .lockFlight fetch.key)
  | .rechecking, .call _ now =>
      let existing := service.cache.get fetch.key
      if existing.any fun tile =>
          fetch.servedFromCache env service tile now then
        some fetch.ends
      else
        match fetch.route with
        | .tile =>
            some (some (fetch.enter (.fetching
              (existing.filter (fetch.servable env)))), .quiet)
        | .asset _ => some (some (fetch.enter .reading), .quiet)
  | .rechecking, .failed =>
      match fetch.route with
      | .tile => some (some (fetch.enter (.fetching none)), .quiet)
      | .asset _ => some (some (fetch.enter .reading), .quiet)
  -- The style names no upstream, or its host is not allowed.
  | .reading, .refused => some fetch.ends
  | .reading, .call _ _ =>
      some (some (fetch.enter (.fetching ((service.cache.get fetch.key).filter
        (fetch.servable env)))), .quiet)
  | .reading, .failed => some (some (fetch.enter (.fetching none)), .quiet)
  | .fetching stale, .answer response now =>
      match fetch.route with
      | .tile => some (fetch.orEnds
          (fetch.fillAnswer env service stale response now))
      | .asset kind => some (fetch.orEnds
          (fetch.assetAnswer env service kind stale response now))
  | .fetching _, .failed => some fetch.ends
  | .storing tile now evict, .call disk _ =>
      some (some (fetch.stored evict),
        .call (.put disk fetch.key tile false now))
  | .storing _ _ evict, .failed => some (some (fetch.stored evict), .quiet)
  | .evicting cap, .call _ _ =>
      some (some (fetch.enter .ending), .call (.evictTo cap))
  | .evicting _, .failed => some (some (fetch.enter .ending), .quiet)
  | .ending, .go => some fetch.ends
  | phase, .dropped =>
      match fetch.route, phase with
      -- `fill` is a detached task.
      | .tile, _ => none
      -- The blocking call goes on without the handler and its lock.
      | .asset _, .storing _ _ _ | .asset _, .evicting _ =>
          some (some { fetch with held := false }, .freeFlight fetch.flight)
      | .asset _, _ => some fetch.ends
  | _, _ => none

end LiveFetch

end Steps

end ChartLocker.Warm
