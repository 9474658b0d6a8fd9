import ChartLocker.Warm.Revalidation

/-!
# Time-dynamic sources

The response which the tile route builds, and how long the row of a
time-dynamic source may be shown: neither the container nor the browser uses
it past the time to live of its source.
-/

namespace ChartLocker.Warm

open Library Cache Catalog

variable {Document : Type}

/-! ## The response -/

/-- The values of `Cache-Control` for a served tile. -/
inductive CacheControl where
  /-- `TILE_CACHE_CONTROL` and the values of time-dynamic sources. -/
  | lifetime (secs : Nat)
  /-- `STALE_TILE_CACHE_CONTROL` -/
  | mustRevalidate
deriving DecidableEq, Repr

def CacheControl.text : CacheControl → String
  | .lifetime secs => "public, max-age=" ++ secs.repr
  | .mustRevalidate => "public, max-age=0, must-revalidate"

def CacheControl.maxAge : CacheControl → Nat
  | .lifetime secs => secs
  | .mustRevalidate => 0

def cacheControl (stale : Bool) (maxAgeSecs : Option Nat) : CacheControl :=
  if stale then
    .mustRevalidate
  else
    match maxAgeSecs with
    | some secs => .lifetime secs
    | none => .lifetime 86400

/-- `remaining_max_age`; an age which is negative counts as none. -/
def remainingMaxAge (maxAgeSecs : Option Nat) (fetchedAt now : Int) :
    Option Nat :=
  maxAgeSecs.map fun ttl => ttl - (now - fetchedAt).toNat

structure HttpResponse where
  status : Nat
  contentType : Option String
  etag : Option String
  cacheControl : Option CacheControl
  /-- The header `x-tilecache: stale`. -/
  markedStale : Bool
  body : Blob
deriving DecidableEq, Repr

def HttpResponse.ofStatus (status : Nat) : HttpResponse :=
  ⟨status, none, none, none, false, []⟩

/-- `tile_http_response_with_max_age`, for legal header values. -/
def tileHttpResponseWithMaxAge (contentType etag : String) (stale : Bool)
    (body : Blob) (ifNoneMatch : Option String) (maxAgeSecs : Option Nat) :
    HttpResponse :=
  if ifNoneMatch.any fun value => etagMatches value etag then
    ⟨304, none, some etag, some (cacheControl stale maxAgeSecs), stale, []⟩
  else
    ⟨200, some contentType, some etag, some (cacheControl stale maxAgeSecs),
      stale, body⟩

/-- The route `tile`; `respondedAt` is the clock when the response is
built. -/
def tileRoute (maxAgeSeconds : Option Nat) (respondedAt : Int) :
    FetchOutcome → HttpResponse
  | .hit tile =>
      tileHttpResponseWithMaxAge tile.contentType tile.etag tile.stale
        tile.body none
        (remainingMaxAge maxAgeSeconds tile.fetchedAt respondedAt)
  | .notModified etag stale fetchedAt =>
      tileHttpResponseWithMaxAge "" etag stale [] (some etag)
        (remainingMaxAge maxAgeSeconds fetchedAt respondedAt)
  | .empty status => .ofStatus
      (if 100 ≤ status ∧ status < 1000 then status else 404)
  | .notAllowed => .ofStatus 404
  | .badRequest => .ofStatus 400
  | .unavailable => .ofStatus 502

/-! ## Ages -/

/-- The answer comes from a row, or confirms one which the client has. -/
def FetchOutcome.Shows (outcome : FetchOutcome) (stale : Bool)
    (fetchedAt : Int) : Prop :=
  (∃ tile, outcome = .hit tile ∧ tile.stale = stale ∧
    tile.fetchedAt = fetchedAt) ∨
  ∃ etag, outcome = .notModified etag stale fetchedAt

/-- An answer which is decided on comes from no row that has reached the
age. -/
def Decision.Younger (decision : Decision) (age : Int) : Prop :=
  ∀ stale fetchedAt, decision.outcome.Shows stale fetchedAt →
    decision.decidedAt - fetchedAt < age

section Ages

variable {env : Environment Document} {maxStaleSecs : Int}
  {source : ChartSource} {ttl : Nat} {tile : CachedTile}
  {ifNoneMatch : Option String} {decidedAt age : Int}

theorem clampedToTtl_le (volatile : source.maxAgeSeconds = some ttl)
    (defaultSecs : Int) : source.clampedToTtl defaultSecs ≤ ttl := by
  unfold ChartSource.clampedToTtl
  rw [volatile]
  exact (min_le_right _ _).trans (min_le_left _ _)

theorem younger_respondCached {stale : Bool}
    (young : decidedAt - tile.fetchedAt < age) :
    Decision.Younger ⟨respondCached tile ifNoneMatch stale, decidedAt⟩
      age := by
  intro marked fetchedAt shows
  unfold respondCached at shows
  split at shows
  · rcases shows with ⟨_, hit, _⟩ | ⟨etag, same⟩
    · cases hit
    · cases same
      exact young
  · rcases shows with ⟨response, hit, _, same⟩ | ⟨etag, same⟩
    · cases hit
      exact same ▸ young
    · cases same

theorem younger_unavailable :
    Decision.Younger ⟨.unavailable, decidedAt⟩ age := by
  rintro stale fetchedAt (⟨_, same, _⟩ | ⟨_, same⟩)
  · cases same
  · cases same

theorem younger_empty (status : Nat) :
    Decision.Younger ⟨.empty status, decidedAt⟩ age := by
  rintro stale fetchedAt (⟨_, same, _⟩ | ⟨_, same⟩)
  · cases same
  · cases same

/-- A request which is refused is answered without a row. -/
theorem younger_refused {outcome : FetchOutcome}
    (refused : outcome = .notAllowed ∨ outcome = .badRequest) :
    Decision.Younger ⟨outcome, decidedAt⟩ age := by
  rintro stale fetchedAt (⟨_, same, _⟩ | ⟨_, same⟩)
  · rcases refused with rfl | rfl <;> cases same
  · rcases refused with rfl | rfl <;> cases same

namespace Exchange

variable {exchange : Exchange} {windows : TileWindows}

/-- A row of a time-dynamic source has no exemption. -/
theorem young_of_mayServeStale (volatile : windows.volatile = true)
    (may : exchange.mayServeStale windows tile = true) :
    exchange.staleNow - tile.fetchedAt < windows.maxStaleSecs := by
  unfold TileReads.mayServeStale at may
  rw [volatile, Bool.not_true, Bool.false_and, Bool.or_false] at may
  exact of_decide_eq_true may

theorem younger_store200 (positive : 0 < age) (response : Response) :
    Decision.Younger ⟨exchange.store200 env response ifNoneMatch,
      exchange.answeredAt⟩ age := by
  unfold store200
  split
  · exact younger_unavailable
  · exact younger_respondCached (by simpa [fetchedTile] using positive)

theorem younger_serveStale (volatile : windows.volatile = true)
    (narrow : windows.maxStaleSecs ≤ age) :
    Decision.Younger ⟨exchange.serveStale windows tile ifNoneMatch,
      exchange.staleNow⟩ age := by
  unfold serveStale
  split
  · next may =>
    exact younger_respondCached
      ((young_of_mayServeStale volatile may).trans_le narrow)
  · exact younger_unavailable

theorem younger_retry (volatile : windows.volatile = true)
    (narrow : windows.maxStaleSecs ≤ age) :
    Decision.Younger ⟨exchange.retry windows, exchange.staleNow⟩ age := by
  unfold TileReads.retry
  split
  · split
    · next allowed =>
      have may := (Bool.and_eq_true_iff.mp allowed).2
      rintro stale fetchedAt (⟨response, hit, _, same⟩ | ⟨etag, same⟩)
      · cases hit
        exact same ▸ (young_of_mayServeStale volatile may).trans_le narrow
      · cases same
    · exact younger_unavailable
  · exact younger_unavailable

theorem younger_revalidate (positive : 0 < age)
    (volatile : windows.volatile = true)
    (narrow : windows.maxStaleSecs ≤ age) :
    (exchange.revalidate env windows tile ifNoneMatch).Younger age := by
  unfold revalidate
  split
  · split
    · exact younger_respondCached (by simpa [refreshed] using positive)
    · split
      · exact younger_store200 positive _
      · exact younger_serveStale volatile narrow
  · exact younger_serveStale volatile narrow

theorem younger_fetchMiss (positive : 0 < age)
    (volatile : windows.volatile = true)
    (narrow : windows.maxStaleSecs ≤ age) :
    (exchange.fetchMiss env windows ifNoneMatch).Younger age := by
  unfold fetchMiss
  split
  · split
    · exact younger_store200 positive _
    · split
      · exact younger_empty _
      · exact younger_unavailable
  · exact younger_retry volatile narrow

theorem younger_fill (volatile : source.maxAgeSeconds = some ttl)
    (positive : 0 < ttl) (window : exchange.window = some source) :
    (exchange.fill env maxStaleSecs ifNoneMatch).Younger ttl := by
  have age : (0 : Int) < ttl := Int.natCast_pos.mpr positive
  have windows : tileWindowsFor env maxStaleSecs exchange.window =
      ⟨source.freshSecs env.freshSecs, source.maxStaleSecs maxStaleSecs,
        true⟩ := by
    rw [window]
    simp [tileWindowsFor, ChartSource.isVolatile, volatile]
  have fresh : source.freshSecs env.freshSecs ≤ ttl :=
    clampedToTtl_le volatile _
  have narrow : source.maxStaleSecs maxStaleSecs ≤ ttl :=
    clampedToTtl_le volatile _
  unfold fill
  rw [windows]
  dsimp only
  split
  · exact younger_unavailable
  · split
    · split
      · next recent =>
        have young := of_decide_eq_true (Bool.and_eq_true_iff.mp recent).2
        exact younger_respondCached (young.trans_le fresh)
      · split
        · exact younger_empty _
        · split
          · exact younger_revalidate age rfl narrow
          · exact younger_fetchMiss age rfl narrow
    · exact younger_fetchMiss age rfl narrow

theorem younger_getTile (volatile : source.maxAgeSeconds = some ttl)
    (positive : 0 < ttl) (found : exchange.source = some source)
    (window : exchange.window = some source) (key : TileKey) :
    (exchange.getTile env maxStaleSecs key ifNoneMatch).Younger ttl := by
  have filled : (exchange.fill env maxStaleSecs ifNoneMatch).Younger ttl :=
    younger_fill volatile positive window
  unfold getTile
  rw [found]
  dsimp only
  split
  · exact younger_refused (.inl rfl)
  · split
    · exact younger_refused (.inr rfl)
    · split
      · split
        · split
          · exact younger_empty _
          · exact filled
        · split
          · exact filled
          · split
            · next fresh =>
              exact younger_respondCached
                (fresh.trans_le (clampedToTtl_le volatile _))
            · split
              · next stale =>
                exact younger_respondCached
                  (stale.2.trans_le (clampedToTtl_le volatile _))
              · exact filled
      · exact filled

/-- The lifetime which `get_tile` hands to the route: none when it rejects the
request. -/
def maxAgeSeconds (exchange : Exchange) (key : TileKey) : Option Nat :=
  match exchange.source with
  | none => none
  | some source =>
      if source.isStyle ∨ expandsUpstream source key = false then
        none
      else
        source.maxAgeSeconds

theorem maxAgeSeconds_of_shows {key : TileKey} {stale : Bool}
    {fetchedAt : Int} (found : exchange.source = some source)
    (shows : (exchange.getTile env maxStaleSecs key
      ifNoneMatch).outcome.Shows stale fetchedAt) :
    exchange.maxAgeSeconds key = source.maxAgeSeconds := by
  have none : ∀ outcome : FetchOutcome,
      outcome = .notAllowed ∨ outcome = .badRequest →
        ¬ outcome.Shows stale fetchedAt := by
    rintro outcome refused (⟨_, same, _⟩ | ⟨_, same⟩)
    · rcases refused with rfl | rfl <;> cases same
    · rcases refused with rfl | rfl <;> cases same
  unfold maxAgeSeconds
  unfold getTile at shows
  rw [found] at shows ⊢
  dsimp only at shows ⊢
  split at shows
  · exact absurd shows (none _ (.inl rfl))
  · next plain =>
    split at shows
    · exact absurd shows (none _ (.inr rfl))
    · next expands => exact if_neg (not_or.mpr ⟨plain, expands⟩)

end Exchange

/-! ## Lifetimes -/

/-- What the response to a shown row says about its lifetime. -/
theorem tileRoute_of_shows {outcome : FetchOutcome} {stale : Bool}
    {fetchedAt respondedAt : Int} {maxAgeSecs : Option Nat}
    (shows : outcome.Shows stale fetchedAt) :
    (tileRoute maxAgeSecs respondedAt outcome).markedStale = stale ∧
      (tileRoute maxAgeSecs respondedAt outcome).cacheControl =
        some (cacheControl stale
          (remainingMaxAge maxAgeSecs fetchedAt respondedAt)) := by
  rcases shows with ⟨tile, rfl, rfl, rfl⟩ | ⟨etag, rfl⟩
  · exact ⟨rfl, rfl⟩
  · unfold tileRoute tileHttpResponseWithMaxAge
    dsimp only
    split
    · exact ⟨rfl, rfl⟩
    · exact ⟨rfl, rfl⟩

/-- What is left of a time to live ends with it. -/
theorem remainingMaxAge_ends {ttl secs : Nat} {fetchedAt now t : Int}
    (left : remainingMaxAge (some ttl) fetchedAt now = some secs)
    (after : now ≤ t) (within : t < now + secs) : t < fetchedAt + ttl := by
  unfold remainingMaxAge at left
  rw [Option.map_some, Option.some.injEq] at left
  omega

/-- The tile route answers from no row of a time-dynamic source which has
reached the time to live, no browser may use an answer past it, and a stale
answer has no lifetime. -/
theorem volatile_ttl_bounds_answers
    (volatile : source.maxAgeSeconds = some ttl) (positive : 0 < ttl)
    (exchange : Exchange) (found : exchange.source = some source)
    (window : exchange.window = some source) (key : TileKey)
    (ifNoneMatch : Option String) (respondedAt : Int) :
    let decision := exchange.getTile env maxStaleSecs key ifNoneMatch
    let response := tileRoute (exchange.maxAgeSeconds key) respondedAt
      decision.outcome
    ∀ stale fetchedAt, decision.outcome.Shows stale fetchedAt →
      decision.decidedAt - fetchedAt < ttl ∧
        response.markedStale = stale ∧
        ∃ control, response.cacheControl = some control ∧
          (stale = true → control.maxAge = 0) ∧
          (stale = false → ∀ t, respondedAt ≤ t →
            t < respondedAt + control.maxAge → t < fetchedAt + ttl) := by
  intro decision response stale fetchedAt shows
  have young : decision.decidedAt - fetchedAt < ttl :=
    Exchange.younger_getTile volatile positive found window key stale
      fetchedAt shows
  have lifetime : exchange.maxAgeSeconds key = some ttl :=
    (Exchange.maxAgeSeconds_of_shows found shows).trans volatile
  obtain ⟨marked, control⟩ :=
    @tileRoute_of_shows _ _ _ respondedAt (exchange.maxAgeSeconds key) shows
  refine ⟨young, marked, _, control, ?_, ?_⟩
  · rintro rfl
    rfl
  · rintro rfl t after within
    rw [lifetime] at within
    exact remainingMaxAge_ends rfl after within

end Ages

/-- A weather chart whose frames are usable for five minutes. -/
def radarChart : ChartSource :=
  { sampleChart with
    id := "radar"
    maxAgeSeconds := some 300 }

/-- A request for a frame of the radar four minutes after its download. -/
def radarExchange : Exchange :=
  { monthOld .transport with
    source := some radarChart
    window := some radarChart
    now := 340 }

theorem volatile_ttl_bounds_answers_radarChart :
    ∃ control, (tileRoute (some 300) 350 (radarExchange.getTile
        sampleDeployment 86400 ⟨"radar", 0, 0, 0⟩ none).outcome).cacheControl =
          some control ∧
      ∀ t : Int, 350 ≤ t → t < 350 + control.maxAge → t < 100 + 300 := by
  have shows : (radarExchange.getTile sampleDeployment 86400
      ⟨"radar", 0, 0, 0⟩ none).outcome.Shows false 100 :=
    .inl ⟨_, rfl, rfl, rfl⟩
  obtain ⟨_, _, control, found, _, ends⟩ :=
    @volatile_ttl_bounds_answers Nat sampleDeployment 86400 radarChart 300
      rfl (by decide) radarExchange rfl rfl ⟨"radar", 0, 0, 0⟩ none 350 false
      100 shows
  exact ⟨control, found, ends rfl⟩

end ChartLocker.Warm
