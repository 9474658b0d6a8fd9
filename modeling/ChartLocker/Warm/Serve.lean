import ChartLocker.Warm.Machine

/-!
# Serving without an upstream

What the tile route and the style asset routes answer when the upstream gives
no answer.  A request reads the shared state at several moments with other
parties between them, so that its reads are arguments, in the order in which
the code performs them; a failed read of the cache is a read of nothing.
-/

namespace ChartLocker.Warm

open Library Cache Catalog

variable {Document : Type}

/-! ## Answers -/

structure TileResponse where
  status : Nat
  contentType : String
  etag : String
  stale : Bool
  body : Blob
  fetchedAt : Int
deriving DecidableEq, Repr

inductive FetchOutcome where
  | hit (response : TileResponse)
  | notModified (etag : String) (stale : Bool) (fetchedAt : Int)
  | empty (status : Nat)
  | notAllowed
  | badRequest
  | unavailable
deriving DecidableEq, Repr

/-- `status as u16`. -/
def statusU16 (status : Int) : Nat :=
  (status % 65536).toNat

def toResponse (tile : CachedTile) (stale : Bool) : TileResponse where
  status := statusU16 tile.status
  contentType := tile.contentType
  etag := tile.strongEtag
  stale := stale
  body := tile.blob.getD []
  fetchedAt := tile.fetchedAt

/-- A validator without the mark of a weak one. -/
def entityTag (value : List Char) : List Char :=
  match trim value with
  | 'W' :: '/' :: tag => tag
  | tag => tag

def etagMatches (headerValue current : String) : Bool :=
  (headerValue.toList.splitOn ',').any fun field =>
    let candidate := trim field
    candidate == ['*'] || entityTag candidate == entityTag current.toList

def respondCached (tile : CachedTile) (ifNoneMatch : Option String)
    (stale : Bool) : FetchOutcome :=
  if ifNoneMatch.any fun value => etagMatches value tile.strongEtag then
    .notModified tile.strongEtag stale tile.fetchedAt
  else
    .hit (toResponse tile stale)

/-- The request is answered with a stored tile, or with the confirmation that
the client has it. -/
def FetchOutcome.Serves (outcome : FetchOutcome) (tile : CachedTile) : Prop :=
  ∃ stale, outcome = .hit (toResponse tile stale) ∨
    outcome = .notModified tile.strongEtag stale tile.fetchedAt

theorem serves_respondCached (tile : CachedTile)
    (ifNoneMatch : Option String) (stale : Bool) :
    (respondCached tile ifNoneMatch stale).Serves tile := by
  unfold respondCached
  split
  · exact ⟨stale, .inr rfl⟩
  · exact ⟨stale, .inl rfl⟩

/-! ## The tile route -/

section TileRoute

variable (env : Environment Document) (maxStaleSecs : Int)

structure TileWindows where
  freshSecs : Int
  maxStaleSecs : Int
  volatile : Bool
deriving DecidableEq, Repr

def tileWindowsFor (source : Option ChartSource) : TileWindows :=
  match source with
  | none => ⟨env.freshSecs, maxStaleSecs, false⟩
  | some source =>
      ⟨source.freshSecs env.freshSecs, source.maxStaleSecs maxStaleSecs,
        source.isVolatile⟩

/-- The reads of `get_tile` and of the `fill` which it awaits.  `admitted`
says that the fill got a permit and its flight. -/
structure TileReads where
  source : Option ChartSource
  now : Int
  cached : Option CachedTile
  slow : Bool
  admitted : Bool
  fillNow : Int
  window : Option ChartSource
  existing : Option CachedTile
  retried : Option CachedTile
  staleNow : Int
  pinned : Bool

def TileReads.mayServeStale (reads : TileReads) (windows : TileWindows)
    (tile : CachedTile) : Bool :=
  decide (reads.staleNow - tile.fetchedAt < windows.maxStaleSecs) ||
    (!windows.volatile && reads.pinned)

/-- The end of `fill` after a failed fetch for a miss. -/
def TileReads.retry (reads : TileReads) (windows : TileWindows) :
    FetchOutcome :=
  match reads.retried with
  | some tile =>
      if isSafeCached200 tile && reads.mayServeStale windows tile then
        .hit (toResponse tile true)
      else
        .unavailable
  | none => .unavailable

/-- `fill_and_await` when every fetch fails. -/
def fill (reads : TileReads) (ifNoneMatch : Option String) : FetchOutcome :=
  let windows := tileWindowsFor env maxStaleSecs reads.window
  if reads.admitted = false then
    .unavailable
  else
    match reads.existing with
    | some tile =>
        if isSafeCached200 tile &&
            decide (reads.fillNow - tile.fetchedAt < windows.freshSecs) then
          respondCached tile ifNoneMatch false
        else if tile.status ≠ 200 ∧
            reads.fillNow - tile.fetchedAt < env.negativeTtlSecs then
          .empty (statusU16 tile.status)
        else if isSafeCached200 tile then
          if reads.mayServeStale windows tile then
            respondCached tile ifNoneMatch true
          else
            .unavailable
        else
          reads.retry windows
    | none => reads.retry windows

/-- `get_tile` when every fetch fails. -/
def getTile (key : TileKey) (reads : TileReads)
    (ifNoneMatch : Option String) : FetchOutcome :=
  match reads.source with
  | none => .notAllowed
  | some source =>
      if source.isStyle then
        .notAllowed
      else if expandsUpstream source key = false then
        .badRequest
      else
        match reads.cached with
        | some tile =>
            if tile.status ≠ 200 then
              if reads.now - tile.fetchedAt < env.negativeTtlSecs then
                .empty (statusU16 tile.status)
              else
                fill env maxStaleSecs reads ifNoneMatch
            else if isSafeCached200 tile = false then
              fill env maxStaleSecs reads ifNoneMatch
            else if reads.now - tile.fetchedAt <
                source.freshSecs env.freshSecs then
              respondCached tile ifNoneMatch false
            else if reads.slow ∧ reads.now - tile.fetchedAt <
                source.maxStaleSecs maxStaleSecs then
              respondCached tile ifNoneMatch true
            else
              fill env maxStaleSecs reads ifNoneMatch
        | none => fill env maxStaleSecs reads ifNoneMatch

/-- A request for a tile of a plain source, during which the tile stays
stored and pinned, is admitted, and no push makes the source time-dynamic. -/
structure TileReads.Sees (reads : TileReads) (key : TileKey)
    (tile : CachedTile) : Prop where
  source : ∃ source, reads.source = some source ∧
    expandsUpstream source key = true
  admitted : reads.admitted = true
  window : (tileWindowsFor env maxStaleSecs reads.window).volatile = false
  cached : reads.cached = some tile
  existing : reads.existing = some tile
  retried : reads.retried = some tile
  pinned : reads.pinned = true

end TileRoute

/-! ## The style asset routes -/

inductive AssetResponse where
  | tile (response : TileResponse)
  | notModified (etag : String) (stale : Bool)
  | notFound
  | badGateway
  | serviceUnavailable
deriving DecidableEq, Repr

section AssetRoute

variable (env : Environment Document) (maxStaleSecs : Int)

/-- The reads of a style asset route.  `learned` is the answer of
`ensure_style_learned`, and `allowed` says that the style names an upstream
on an allowed host. -/
structure AssetReads where
  learned : Bool
  cached : Option CachedTile
  now : Int
  admitted : Bool
  existing : Option CachedTile
  flightNow : Int
  allowed : Bool
  stale : Option CachedTile
  staleNow : Int
  pinned : Bool

/-- `tile_http_response`. -/
def tileHttpResponse (tile : CachedTile) (stale : Bool)
    (ifNoneMatch : Option String) : AssetResponse :=
  if ifNoneMatch.any fun value => etagMatches value tile.strongEtag then
    .notModified tile.strongEtag stale
  else
    .tile (toResponse tile stale)

/-- `serve_cached`. -/
def serveCached (kind : StyleAssetKind) (tile : CachedTile) (now : Int)
    (ifNoneMatch : Option String) : Option AssetResponse :=
  if tile.status = 200 ∧ validStoredAsset env kind tile = true ∧
      now - tile.fetchedAt < env.freshSecs then
    some (tileHttpResponse tile false ifNoneMatch)
  else if tile.status ≠ 200 ∧
      now - tile.fetchedAt < env.negativeTtlSecs then
    some .notFound
  else
    none

/-- `fetch_asset_response` when the fetch fails. -/
def fetchAssetResponse (kind : StyleAssetKind) (reads : AssetReads)
    (ifNoneMatch : Option String) : AssetResponse :=
  match reads.stale.filter fun tile =>
      decide (tile.status = 200) && validStoredAsset env kind tile with
  | none => .badGateway
  | some tile =>
      if reads.staleNow - tile.fetchedAt ≥ maxStaleSecs ∧
          reads.pinned = false then
        .badGateway
      else
        tileHttpResponse tile true ifNoneMatch

/-- `vector_tile`, `glyphs` and `sprite_variant` for a known asset of the
style when every fetch fails. -/
def styleAsset (kind : StyleAssetKind) (reads : AssetReads)
    (ifNoneMatch : Option String) : AssetResponse :=
  if reads.learned = false then
    .badGateway
  else
    match reads.cached.bind fun tile =>
        serveCached env kind tile reads.now ifNoneMatch with
    | some response => response
    | none =>
        if reads.admitted = false then
          .serviceUnavailable
        else
          match reads.existing.bind fun tile =>
              serveCached env kind tile reads.flightNow ifNoneMatch with
          | some response => response
          | none =>
              if reads.allowed = false then
                .badGateway
              else
                fetchAssetResponse env maxStaleSecs kind reads ifNoneMatch

def AssetResponse.Serves (response : AssetResponse) (tile : CachedTile) :
    Prop :=
  ∃ stale, response = .tile (toResponse tile stale) ∨
    response = .notModified tile.strongEtag stale

/-- A request for an asset of a learned style, during which the row stays
stored and pinned, and which is admitted. -/
structure AssetReads.Sees (reads : AssetReads) (tile : CachedTile) :
    Prop where
  learned : reads.learned = true
  cached : reads.cached = some tile
  admitted : reads.admitted = true
  existing : reads.existing = some tile
  allowed : reads.allowed = true
  stale : reads.stale = some tile
  pinned : reads.pinned = true

theorem serves_tileHttpResponse (tile : CachedTile) (stale : Bool)
    (ifNoneMatch : Option String) :
    (tileHttpResponse tile stale ifNoneMatch).Serves tile := by
  unfold tileHttpResponse
  split
  · exact ⟨stale, .inr rfl⟩
  · exact ⟨stale, .inl rfl⟩

end AssetRoute

/-! ## A stored row and its routes -/

section Stored

variable {env : Environment Document} {maxStaleSecs : Int} {tile : CachedTile}

/-- A 200 which stays stored and pinned is served by the tile route exactly
if its media type is acceptable. -/
theorem getTile_serves_iff {key : TileKey} {reads : TileReads}
    (sees : reads.Sees env maxStaleSecs key tile) (ok : tile.status = 200)
    (ifNoneMatch : Option String) :
    (getTile env maxStaleSecs key reads ifNoneMatch).Serves tile ↔
      acceptableContentType tile.contentType = true := by
  obtain ⟨source, known, expands⟩ := sees.source
  have plain : source.isStyle = false := by
    simp only [expandsUpstream, Bool.and_eq_true, Bool.not_eq_true'] at expands
    exact expands.1
  have stale : reads.mayServeStale
      (tileWindowsFor env maxStaleSecs reads.window) tile = true := by
    simp [TileReads.mayServeStale, sees.window, sees.pinned]
  cases safe : acceptableContentType tile.contentType with
  | true =>
      have servable : isSafeCached200 tile = true := by
        simp [isSafeCached200, ok, safe]
      refine iff_of_true ?_ rfl
      simp only [getTile, fill, known, plain, expands, sees.cached,
        sees.existing, sees.admitted, servable, stale, ok]
      -- Each way through the handler ends with the stored row.
      simp only [ne_eq, not_true_eq_false, Bool.true_eq_false, if_false,
        false_and, Bool.true_and, if_true, Bool.false_eq_true]
      repeat' split
      all_goals exact serves_respondCached tile ifNoneMatch _
  | false =>
      have unsafe200 : isSafeCached200 tile = false := by
        simp [isSafeCached200, safe]
      refine iff_of_false ?_ (by simp)
      have refused : getTile env maxStaleSecs key reads ifNoneMatch =
          .unavailable := by
        simp [getTile, fill, TileReads.retry, known, plain, expands,
          sees.cached, sees.existing, sees.admitted, sees.retried, unsafe200,
          ok]
      rintro ⟨stale, served | served⟩
      · exact absurd (refused.symm.trans served) (by simp)
      · exact absurd (refused.symm.trans served) (by simp)

/-- A 200 which stays stored and pinned is served by a style route exactly if
the check of that route accepts it. -/
theorem styleAsset_serves_iff {kind : StyleAssetKind} {reads : AssetReads}
    (sees : reads.Sees tile) (ok : tile.status = 200)
    (ifNoneMatch : Option String) :
    (styleAsset env maxStaleSecs kind reads ifNoneMatch).Serves tile ↔
      validStoredAsset env kind tile = true := by
  cases valid : validStoredAsset env kind tile with
  | true =>
      refine iff_of_true ?_ rfl
      have cached : ∀ now, serveCached env kind tile now ifNoneMatch = none ∨
          serveCached env kind tile now ifNoneMatch =
            some (tileHttpResponse tile false ifNoneMatch) := by
        intro now
        simp only [serveCached, ok, valid]
        split <;> simp
      have fetched : fetchAssetResponse env maxStaleSecs kind reads
          ifNoneMatch = tileHttpResponse tile true ifNoneMatch := by
        simp [fetchAssetResponse, sees.stale, sees.pinned, ok, valid,
          Option.filter]
      simp only [styleAsset, sees.learned, sees.cached, sees.admitted,
        sees.existing, sees.allowed, Option.bind_some, fetched]
      rcases cached reads.now with missed | served
      · rcases cached reads.flightNow with missedAgain | served
        · simp only [missed, missedAgain, Bool.true_eq_false, if_false]
          exact serves_tileHttpResponse tile true ifNoneMatch
        · simp only [missed, served, Bool.true_eq_false, if_false]
          exact serves_tileHttpResponse tile false ifNoneMatch
      · simp only [served, Bool.true_eq_false, if_false]
        exact serves_tileHttpResponse tile false ifNoneMatch
  | false =>
      refine iff_of_false ?_ (by simp)
      have missed : ∀ now, serveCached env kind tile now ifNoneMatch =
          none := by
        intro now
        simp [serveCached, ok, valid]
      have refused : styleAsset env maxStaleSecs kind reads ifNoneMatch =
          .badGateway := by
        simp [styleAsset, fetchAssetResponse, sees.learned, sees.cached,
          sees.admitted, sees.existing, sees.allowed, sees.stale, missed,
          valid, Option.filter]
      rintro ⟨stale, served | served⟩
      · exact absurd (refused.symm.trans served) (by simp)
      · exact absurd (refused.symm.trans served) (by simp)

end Stored

/-! ## Warm and serve -/

/-- The step of a tile task gives a 200 row to count: a fetched row as done,
or a stored row as skipped. -/
def TileTask.Counts (task next : TileTask) (service : Service Document)
    (tile : CachedTile) : Prop :=
  tile.status = 200 ∧
    (next.phase = .returning (.tile ⟨task.key, tile⟩) ∨
      (next.phase = .returning .skipped ∧
        service.cache.get task.key = some tile))

section Agree

variable {env : Environment Document} {maxStaleSecs : Int}
  {service : Service Document} {task next : TileTask} {event : Event}
  {effect : Effect} {tile : CachedTile}

/-- A row is fetched by an answer which passes the check of the tile
route. -/
theorem acceptable_of_fetched
    (stepped : task.step env service event = some (next, effect))
    (fetched : next.phase = .returning (.tile ⟨task.key, tile⟩)) :
    (∃ response now, event = .answer response now) ∧
      acceptableContentType tile.contentType = true := by
  rcases TileTask.returning_cases stepped fetched with
    ⟨_, _, _, _, _, _, ⟨skipped, _⟩ | capped⟩ |
    ⟨response, now, _, rfl, answered⟩ | failed | cancelled
  · cases skipped
  · cases capped
  · obtain ⟨_, accepted, same⟩ := warmAnswer_eq_tile.mp answered.symm
    cases same
    simp only [acceptableTile, Bool.and_eq_true] at accepted
    exact ⟨⟨response, now, rfl⟩, accepted.2⟩
  · cases failed
  · cases cancelled

/-- A skipped tile is not the answer of the upstream. -/
theorem not_answer_of_skipped
    (stepped : task.step env service event = some (next, effect))
    (skipped : next.phase = .returning .skipped) :
    ¬ ∃ response now, event = .answer response now := by
  rintro ⟨response, now, rfl⟩
  rcases TileTask.returning_cases stepped skipped with
    ⟨_, _, _, _, _, calling, _⟩ | ⟨other, later, _, _, answered⟩ |
    failed | cancelled
  · cases calling
  · unfold warmAnswer at answered
    repeat' split at answered
    all_goals cases answered
  · cases failed
  · cases cancelled

theorem kind_of_resolve {reading : Service Document} {source name : String}
    {z x y : Nat} {key : TileKey} {kind : StyleAssetKind}
    (resolved : (AssetRequest.vectorTile source name z x y).resolve reading =
      some (key, kind)) : kind = .rasterTile ∨ kind = .vectorTile := by
  simp only [AssetRequest.resolve, Option.bind_eq_some_iff] at resolved
  obtain ⟨learned, _, found⟩ := resolved
  split at found
  · cases found
    split
    · exact .inl rfl
    · exact .inr rfl
  · contradiction

/-- A 200 row which a warm job counts is served offline by the tile route
exactly if it was fetched or has an acceptable media type, and by the route
of a style's sub-source exactly if its media type is one of those of the
sub-source's kind. -/
theorem warmed_row_served_iff
    (stepped : task.step env service event = some (next, effect))
    (counts : task.Counts next service tile) :
    (∀ reads ifNoneMatch, reads.Sees env maxStaleSecs task.key tile →
      ((getTile env maxStaleSecs task.key reads ifNoneMatch).Serves tile ↔
        (∃ response now, event = .answer response now) ∨
          acceptableContentType tile.contentType = true)) ∧
    (∀ (reading : Service Document) source name z x y kind,
      (AssetRequest.vectorTile source name z x y).resolve reading =
        some (task.key, kind) →
      ∀ reads ifNoneMatch, reads.Sees tile →
        ((styleAsset env maxStaleSecs kind reads ifNoneMatch).Serves tile ↔
          hasMediaType tile.contentType
            (if kind = .rasterTile then
              ["image/png", "image/webp", "image/jpeg"]
            else
              ["application/x-protobuf",
                "application/vnd.mapbox-vector-tile"]) = true)) := by
  obtain ⟨ok, origin⟩ := counts
  refine ⟨fun reads ifNoneMatch sees => ?_, ?_⟩
  · rw [getTile_serves_iff sees ok]
    rcases origin with fetched | ⟨skipped, _⟩
    · have accepted := acceptable_of_fetched stepped fetched
      exact iff_of_true accepted.2 (.inl accepted.1)
    · have cached := not_answer_of_skipped stepped skipped
      simp only [cached, false_or]
  · intro reading source name z x y kind resolved reads ifNoneMatch sees
    rw [styleAsset_serves_iff sees ok]
    rcases kind_of_resolve resolved with rfl | rfl <;>
      simp [validStoredAsset, validStyleAsset]

end Agree

/-- A learned style with a shaded relief. -/
def reliefService : Service Nat :=
  sampleService.withApp { sampleService.app with
    styleState := KeyedTable.empty.insertOrReplace
      { source := "liberty"
        content := ⟨none, [("relief", ["https://tiles.example/{z}/{x}/{y}"])],
          ["relief"], [], [], none, 0⟩
        configGeneration := 2
        generation := 2
        fetchedAt := 0
        upstreamValidator := none } }

/-- The task of one tile of the relief, waiting for the upstream. -/
def reliefTask : TileTask where
  order := 0
  source :=
    { id := vectorCacheSourceAt "liberty" "relief" 2
      title := ""
      upstream := .xyz "https://tiles.example/{z}/{x}/{y}"
      tileSize := 256
      minzoom := 0
      maxzoom := 6
      vectorMaxzoom := none
      bounds := none
      coverage := none
      maxAgeSeconds := none
      attribution := "" }
  key := ⟨vectorCacheSourceAt "liberty" "relief" 2, 0, 0, 0⟩
  target := none
  storage := none
  replacementCredit := 0
  held := true
  phase := .fetching

def reliefAnswer (contentType : String) : Response :=
  ⟨200, contentType, none, [1, 2, 3]⟩

/-- A request while the tile of an answer is stored and pinned. -/
def reliefReads (contentType : String) : AssetReads :=
  let tile := fetchedTile sampleDeployment (reliefAnswer contentType) 100
  ⟨true, some tile, 200, true, some tile, 200, true, some tile, 200, true⟩

theorem reliefTask_counts_refused_avif :
    ∃ next effect tile,
      reliefTask.step sampleDeployment sampleService
          (.answer (reliefAnswer "image/avif") 100) = some (next, effect) ∧
        reliefTask.Counts next sampleService tile ∧
        (AssetRequest.vectorTile "liberty" "relief" 0 0 0).resolve
            reliefService = some (reliefTask.key, .rasterTile) ∧
        (reliefReads "image/avif").Sees tile ∧
        styleAsset sampleDeployment 86400 .rasterTile
          (reliefReads "image/avif") none = .badGateway :=
  ⟨_, _, fetchedTile sampleDeployment (reliefAnswer "image/avif") 100, rfl,
    ⟨rfl, .inl (by rfl)⟩, by rfl, ⟨rfl, rfl, rfl, rfl, rfl, rfl, rfl⟩,
    by decide⟩

theorem warmed_row_served_iff_png :
    ∃ response, styleAsset sampleDeployment 86400 .rasterTile
      (reliefReads "image/png") none = response ∧
      response.Serves
        (fetchedTile sampleDeployment (reliefAnswer "image/png") 100) := by
  have agree := (@warmed_row_served_iff Nat sampleDeployment 86400
    sampleService reliefTask _ (.answer (reliefAnswer "image/png") 100) _
    (fetchedTile sampleDeployment (reliefAnswer "image/png") 100) rfl
    ⟨rfl, .inl (by rfl)⟩).2
  refine ⟨_, rfl, ?_⟩
  refine (agree reliefService "liberty" "relief" 0 0 0 .rasterTile (by rfl)
    _ none ⟨rfl, rfl, rfl, rfl, rfl, rfl, rfl⟩).mpr ?_
  decide

end ChartLocker.Warm
