import ChartLocker.Warm.Serve

/-!
# Serving with an upstream

`fill` and `fetch_asset_response` with every outcome of their fetch.  A stored
row which the code may still serve is answered unless the upstream sends
something in its place which the code refuses.
-/

namespace ChartLocker.Warm

open Library Cache Catalog

variable {Document : Type}

/-! ## Fetching -/

/-- What one request to the upstream meets.  An answer has its whole body;
a body which breaks off is a failure of the transport. -/
inductive Attempt where
  | timeout
  | transport
  | answered (response : Response)

inductive FetchError where
  | timeout
  | transport
deriving DecidableEq, Repr

section Fetching

variable (env : Environment Document)

/-- The body is read by `read_capped`. -/
def Attempt.read : Attempt → Except FetchError Response
  | .timeout => .error .timeout
  | .transport => .error .transport
  | .answered response =>
      if response.body.length ≤ env.maxBlobBytes then
        .ok response
      else
        .error .transport

/-- `fetch_upstream`, which tries a second time after a timeout. -/
def fetchUpstream (first second : Attempt) : Except FetchError Response :=
  match first.read env with
  | .error .timeout => second.read env
  | outcome => outcome

theorem Attempt.length_of_read {attempt : Attempt} {response : Response}
    (read : attempt.read env = .ok response) :
    response.body.length ≤ env.maxBlobBytes := by
  cases attempt with
  | timeout => cases read
  | transport => cases read
  | answered sent =>
      unfold Attempt.read at read
      dsimp only at read
      split at read
      · next small =>
        cases read
        exact small
      · cases read

/-- An answer has at most the size which may be stored. -/
theorem length_of_fetchUpstream {first second : Attempt} {response : Response}
    (fetched : fetchUpstream env first second = .ok response) :
    response.body.length ≤ env.maxBlobBytes := by
  unfold fetchUpstream at fetched
  split at fetched
  · exact second.length_of_read env fetched
  · exact first.length_of_read env fetched

end Fetching

/-! ## The tile route -/

/-- An outcome, and the clock which it was decided by. -/
structure Decision where
  outcome : FetchOutcome
  decidedAt : Int

/-- The reads of a request whose `fill` fetches; `answeredAt` is the clock
after the answer. -/
structure Exchange extends TileReads where
  first : Attempt
  second : Attempt
  answeredAt : Int

namespace Exchange

variable (env : Environment Document) (maxStaleSecs : Int)
  (exchange : Exchange)

/-- `store_200`, which answers with the row that it stores. -/
def store200 (response : Response) (ifNoneMatch : Option String) :
    FetchOutcome :=
  if response.body.length > env.maxBlobBytes ∨
      acceptableContentType response.contentType = false then
    .unavailable
  else
    respondCached (fetchedTile env response exchange.answeredAt) ifNoneMatch
      false

/-- A revalidation which failed. -/
def serveStale (windows : TileWindows) (tile : CachedTile)
    (ifNoneMatch : Option String) : FetchOutcome :=
  if exchange.mayServeStale windows tile then
    respondCached tile ifNoneMatch true
  else
    .unavailable

/-- The copy of a row which the upstream has confirmed. -/
def refreshed (tile : CachedTile) : CachedTile :=
  { tile with
    fetchedAt := exchange.answeredAt
    lastAccess := exchange.answeredAt }

/-- The revalidation of a stale 200. -/
def revalidate (windows : TileWindows) (tile : CachedTile)
    (ifNoneMatch : Option String) : Decision :=
  match fetchUpstream env exchange.first exchange.second with
  | .ok response =>
      if response.status = 304 then
        ⟨respondCached (exchange.refreshed tile) ifNoneMatch false,
          exchange.answeredAt⟩
      else if response.status = 200 then
        ⟨exchange.store200 env response ifNoneMatch, exchange.answeredAt⟩
      else
        ⟨exchange.serveStale windows tile ifNoneMatch, exchange.staleNow⟩
  | .error _ =>
      ⟨exchange.serveStale windows tile ifNoneMatch, exchange.staleNow⟩

/-- The fetch for a miss or an expired negative. -/
def fetchMiss (windows : TileWindows) (ifNoneMatch : Option String) :
    Decision :=
  match fetchUpstream env exchange.first exchange.second with
  | .ok response =>
      if response.status = 200 then
        ⟨exchange.store200 env response ifNoneMatch, exchange.answeredAt⟩
      else if response.status = 404 ∨ response.status = 204 then
        ⟨.empty response.status, exchange.answeredAt⟩
      else
        ⟨.unavailable, exchange.answeredAt⟩
  | .error _ => ⟨exchange.retry windows, exchange.staleNow⟩

/-- `fill_and_await`. -/
def fill (ifNoneMatch : Option String) : Decision :=
  let windows := tileWindowsFor env maxStaleSecs exchange.window
  if exchange.admitted = false then
    ⟨.unavailable, exchange.fillNow⟩
  else
    match exchange.existing with
    | some tile =>
        if isSafeCached200 tile &&
            decide (exchange.fillNow - tile.fetchedAt < windows.freshSecs) then
          ⟨respondCached tile ifNoneMatch false, exchange.fillNow⟩
        else if tile.status ≠ 200 ∧
            exchange.fillNow - tile.fetchedAt < env.negativeTtlSecs then
          ⟨.empty (statusU16 tile.status), exchange.fillNow⟩
        else if isSafeCached200 tile then
          exchange.revalidate env windows tile ifNoneMatch
        else
          exchange.fetchMiss env windows ifNoneMatch
    | none => exchange.fetchMiss env windows ifNoneMatch

/-- `get_tile`.  The fill which is spawned for a slow source answers
nobody. -/
def getTile (key : TileKey) (ifNoneMatch : Option String) : Decision :=
  match exchange.source with
  | none => ⟨.notAllowed, exchange.now⟩
  | some source =>
      if source.isStyle then
        ⟨.notAllowed, exchange.now⟩
      else if expandsUpstream source key = false then
        ⟨.badRequest, exchange.now⟩
      else
        match exchange.cached with
        | some tile =>
            if tile.status ≠ 200 then
              if exchange.now - tile.fetchedAt < env.negativeTtlSecs then
                ⟨.empty (statusU16 tile.status), exchange.now⟩
              else
                exchange.fill env maxStaleSecs ifNoneMatch
            else if isSafeCached200 tile = false then
              exchange.fill env maxStaleSecs ifNoneMatch
            else if exchange.now - tile.fetchedAt <
                source.freshSecs env.freshSecs then
              ⟨respondCached tile ifNoneMatch false, exchange.now⟩
            else if exchange.slow ∧ exchange.now - tile.fetchedAt <
                source.maxStaleSecs maxStaleSecs then
              ⟨respondCached tile ifNoneMatch true, exchange.now⟩
            else
              exchange.fill env maxStaleSecs ifNoneMatch
        | none => exchange.fill env maxStaleSecs ifNoneMatch

end Exchange

/-! ## The style asset routes -/

structure AssetExchange extends AssetReads where
  first : Attempt
  second : Attempt
  answeredAt : Int

/-- `fetch_asset_response`. -/
def AssetExchange.fetchAssetResponse (env : Environment Document)
    (maxStaleSecs : Int) (exchange : AssetExchange) (kind : StyleAssetKind)
    (ifNoneMatch : Option String) : AssetResponse :=
  match fetchUpstream env exchange.first exchange.second with
  | .ok response =>
      if response.status = 304 then
        match exchange.stale.filter fun tile =>
            decide (tile.status = 200) && validStoredAsset env kind tile with
        | none => .badGateway
        | some tile => tileHttpResponse
            { tile with
              fetchedAt := exchange.answeredAt
              lastAccess := exchange.answeredAt } false ifNoneMatch
      else if response.status = 200 then
        if validFetchedAsset env kind response then
          tileHttpResponse (fetchedTile env response exchange.answeredAt)
            false ifNoneMatch
        else
          .badGateway
      else if response.status = 404 ∨ response.status = 204 then
        .notFound
      else
        Warm.fetchAssetResponse env maxStaleSecs kind exchange.toAssetReads
          ifNoneMatch
  | .error _ =>
      Warm.fetchAssetResponse env maxStaleSecs kind exchange.toAssetReads
        ifNoneMatch

/-! ## A fetch which fails -/

section Offline

variable {env : Environment Document} {maxStaleSecs : Int}
  {ifNoneMatch : Option String} {failure : FetchError}

/-- A fill whose fetch fails is one without an upstream. -/
theorem Exchange.fill_offline {exchange : Exchange}
    (failed : fetchUpstream env exchange.first exchange.second =
      .error failure) :
    (exchange.fill env maxStaleSecs ifNoneMatch).outcome =
      Warm.fill env maxStaleSecs exchange.toTileReads ifNoneMatch := by
  unfold Exchange.fill Warm.fill Exchange.revalidate Exchange.fetchMiss
    Exchange.serveStale
  rw [failed]
  cases exchange.existing with
  | none => exact apply_ite Decision.outcome _ _ _
  | some tile =>
      dsimp only
      simp only [apply_ite Decision.outcome]

theorem Exchange.getTile_offline {exchange : Exchange} {key : TileKey}
    (failed : fetchUpstream env exchange.first exchange.second =
      .error failure) :
    (exchange.getTile env maxStaleSecs key ifNoneMatch).outcome =
      Warm.getTile env maxStaleSecs key exchange.toTileReads ifNoneMatch := by
  have filled := @Exchange.fill_offline _ env maxStaleSecs ifNoneMatch failure
    exchange failed
  unfold Exchange.getTile Warm.getTile
  cases exchange.source with
  | none => rfl
  | some source =>
      cases exchange.cached with
      | none =>
          dsimp only
          simp only [apply_ite Decision.outcome, filled]
      | some tile =>
          dsimp only
          simp only [apply_ite Decision.outcome, filled]

end Offline

/-! ## A stored row and its revalidation -/

/-- The answer is the stored row, or a newer one which the tile route
accepts. -/
def FetchOutcome.ServesRow (outcome : FetchOutcome) (tile : CachedTile)
    (answeredAt : Int) : Prop :=
  ∃ served, outcome.Serves served ∧ (served = tile ∨
    (isSafeCached200 served = true ∧ served.fetchedAt = answeredAt))

def AssetResponse.ServesRow (response : AssetResponse)
    (env : Environment Document) (kind : StyleAssetKind) (tile : CachedTile)
    (answeredAt : Int) : Prop :=
  ∃ served, response.Serves served ∧ (served = tile ∨
    (served.status = 200 ∧ validStoredAsset env kind served = true ∧
      served.fetchedAt = answeredAt))

/-- The upstream answers a 200 whose media type is refused. -/
def Exchange.Refused (env : Environment Document) (exchange : Exchange) :
    Prop :=
  ∃ response, fetchUpstream env exchange.first exchange.second =
      .ok response ∧
    response.status = 200 ∧
    acceptableContentType response.contentType = false

/-- The upstream answers a 200 which the check of the asset refuses, or that
there is no such asset. -/
def AssetExchange.Refused (env : Environment Document)
    (exchange : AssetExchange) (kind : StyleAssetKind) : Prop :=
  ∃ response, fetchUpstream env exchange.first exchange.second =
      .ok response ∧
    ((response.status = 200 ∧
        validFetchedAsset env kind response = false) ∨
      response.status = 404 ∨ response.status = 204)

/-- The condition under which a stored asset is served past its window. -/
def AssetReads.mayServeStale (reads : AssetReads) (maxStaleSecs : Int)
    (tile : CachedTile) : Bool :=
  decide (reads.staleNow - tile.fetchedAt < maxStaleSecs) || reads.pinned

section Revalidated

variable {env : Environment Document} {maxStaleSecs : Int}
  {ifNoneMatch : Option String} {tile : CachedTile}

theorem not_servesRow_unavailable {answeredAt : Int} :
    ¬ FetchOutcome.unavailable.ServesRow tile answeredAt := by
  rintro ⟨served, ⟨stale, hit | same⟩, _⟩
  · cases hit
  · cases same

theorem not_servesRow_of_failure {kind : StyleAssetKind} {answeredAt : Int}
    {response : AssetResponse}
    (failed : response = .badGateway ∨ response = .notFound) :
    ¬ response.ServesRow env kind tile answeredAt := by
  rintro ⟨served, ⟨stale, hit | same⟩, _⟩
  · rcases failed with rfl | rfl <;> cases hit
  · rcases failed with rfl | rfl <;> cases same

theorem servesRow_tile (stale : Bool) (answeredAt : Int) :
    (respondCached tile ifNoneMatch stale).ServesRow tile answeredAt :=
  ⟨tile, serves_respondCached tile ifNoneMatch stale, .inl rfl⟩

namespace Exchange

variable {exchange : Exchange}

theorem isSafe_refreshed (safe : isSafeCached200 tile = true) :
    isSafeCached200 (exchange.refreshed tile) = true :=
  safe

/-- An accepted body answers the request; a refused one hides the row. -/
theorem servesRow_store200 {response : Response}
    (fetched : fetchUpstream env exchange.first exchange.second =
      .ok response) :
    (exchange.store200 env response ifNoneMatch).ServesRow tile
        exchange.answeredAt ↔
      acceptableContentType response.contentType = true := by
  have small : ¬ response.body.length > env.maxBlobBytes :=
    Nat.not_lt.mpr (length_of_fetchUpstream env fetched)
  unfold store200
  cases accepted : acceptableContentType response.contentType with
  | true =>
      rw [if_neg (by simp [small])]
      refine iff_of_true ⟨_, serves_respondCached _ _ _, .inr ⟨?_, rfl⟩⟩ rfl
      simp [isSafeCached200, fetchedTile, accepted]
  | false =>
      rw [if_pos (.inr rfl)]
      exact iff_of_false not_servesRow_unavailable Bool.false_ne_true

theorem servesRow_serveStale {windows : TileWindows}
    (may : exchange.mayServeStale windows tile = true) :
    (exchange.serveStale windows tile ifNoneMatch).ServesRow tile
      exchange.answeredAt := by
  unfold serveStale
  rw [if_pos may]
  exact servesRow_tile true _

/-- Every outcome of a revalidation but a refused 200 serves the row. -/
theorem servesRow_revalidate {windows : TileWindows}
    (safe : isSafeCached200 tile = true)
    (may : exchange.mayServeStale windows tile = true) :
    (exchange.revalidate env windows tile ifNoneMatch).outcome.ServesRow tile
        exchange.answeredAt ↔ ¬ exchange.Refused env := by
  have stale := @servesRow_serveStale ifNoneMatch tile exchange windows may
  unfold revalidate Refused
  cases fetched : fetchUpstream env exchange.first exchange.second with
  | error failure =>
      refine iff_of_true stale ?_
      rintro ⟨response, answered, _⟩
      cases answered
  | ok response =>
      dsimp only
      have one : (∃ other, (.ok response : Except FetchError Response) =
          .ok other ∧ other.status = 200 ∧
            acceptableContentType other.contentType = false) ↔
          response.status = 200 ∧
            acceptableContentType response.contentType = false := by
        constructor
        · rintro ⟨other, same, refused⟩
          cases same
          exact refused
        · exact fun refused => ⟨response, rfl, refused⟩
      rw [one]
      split
      · next confirmed =>
        refine iff_of_true ⟨_, serves_respondCached _ _ _,
          .inr ⟨isSafe_refreshed safe, rfl⟩⟩ ?_
        rw [confirmed]
        exact fun refused => absurd refused.1 (by decide)
      · split
        · next ok =>
          rw [servesRow_store200 fetched]
          simp [ok]
        · next other => exact iff_of_true stale fun refused => other refused.1

end Exchange

namespace AssetExchange

variable {exchange : AssetExchange} {kind : StyleAssetKind}

/-- The row which `valid_stale` keeps. -/
theorem filter_stale (stored : exchange.stale = some tile)
    (ok : tile.status = 200) (valid : validStoredAsset env kind tile = true) :
    (exchange.stale.filter fun row =>
      decide (row.status = 200) && validStoredAsset env kind row) =
        some tile := by
  rw [stored, Option.filter_some, valid, decide_eq_true ok]
  rfl

theorem servesRow_response {served : CachedTile} (stale : Bool)
    (accepted : served = tile ∨ (served.status = 200 ∧
      validStoredAsset env kind served = true ∧
      served.fetchedAt = exchange.answeredAt)) :
    (tileHttpResponse served stale ifNoneMatch).ServesRow env kind tile
      exchange.answeredAt :=
  ⟨served, serves_tileHttpResponse served stale ifNoneMatch, accepted⟩

/-- A failed fetch serves the row past its window. -/
theorem servesRow_offline (stored : exchange.stale = some tile)
    (ok : tile.status = 200) (valid : validStoredAsset env kind tile = true)
    (may : exchange.mayServeStale maxStaleSecs tile = true) :
    (Warm.fetchAssetResponse env maxStaleSecs kind exchange.toAssetReads
      ifNoneMatch).ServesRow env kind tile exchange.answeredAt := by
  have kept : ¬ (exchange.staleNow - tile.fetchedAt ≥ maxStaleSecs ∧
      exchange.pinned = false) := by
    rintro ⟨old, unpinned⟩
    unfold AssetReads.mayServeStale at may
    rw [unpinned, Bool.or_false, decide_eq_true_eq] at may
    omega
  unfold Warm.fetchAssetResponse
  rw [filter_stale stored ok valid]
  dsimp only
  rw [if_neg kept]
  exact servesRow_response true (.inl rfl)

/-- Every outcome of the fetch but a refusal serves the asset. -/
theorem servesRow_fetchAssetResponse (stored : exchange.stale = some tile)
    (ok : tile.status = 200) (valid : validStoredAsset env kind tile = true)
    (may : exchange.mayServeStale maxStaleSecs tile = true) :
    (exchange.fetchAssetResponse env maxStaleSecs kind ifNoneMatch).ServesRow
        env kind tile exchange.answeredAt ↔ ¬ exchange.Refused env kind := by
  have offline := @servesRow_offline _ env maxStaleSecs ifNoneMatch tile
    exchange kind stored ok valid may
  unfold fetchAssetResponse Refused
  cases fetched : fetchUpstream env exchange.first exchange.second with
  | error failure =>
      refine iff_of_true offline ?_
      rintro ⟨response, answered, _⟩
      cases answered
  | ok response =>
      dsimp only
      have one : (∃ other, (.ok response : Except FetchError Response) =
          .ok other ∧ ((other.status = 200 ∧
            validFetchedAsset env kind other = false) ∨
              other.status = 404 ∨ other.status = 204)) ↔
          (response.status = 200 ∧
            validFetchedAsset env kind response = false) ∨
            response.status = 404 ∨ response.status = 204 := by
        constructor
        · rintro ⟨other, same, refused⟩
          cases same
          exact refused
        · exact fun refused => ⟨response, rfl, refused⟩
      rw [one]
      split
      · next confirmed =>
        rw [filter_stale stored ok valid]
        refine iff_of_true (servesRow_response false
          (.inr ⟨ok, valid, rfl⟩)) ?_
        omega
      · split
        · next ok200 =>
          split
          · next accepted =>
            refine iff_of_true (servesRow_response false
              (.inr ⟨rfl, accepted, rfl⟩)) ?_
            rw [accepted]
            simp [ok200]
          · next refused =>
            refine iff_of_false (not_servesRow_of_failure (.inl rfl)) ?_
            exact not_not.mpr (.inl ⟨ok200, Bool.eq_false_of_not_eq_true
              refused⟩)
        · next other =>
          split
          · next missing =>
            exact iff_of_false (not_servesRow_of_failure (.inr rfl))
              (not_not.mpr (.inr missing))
          · next served =>
            refine iff_of_true offline ?_
            rintro (refused | missing)
            · exact other refused.1
            · exact served missing

end AssetExchange

/-- A stored row which may be served, and which is not fresh already, is
served exactly unless the upstream sends something in its place which the
route refuses; a missing asset counts as that.  When the fetch fails the tile
route answers as it does without an upstream. -/
theorem stored_row_served_iff :
    (∀ (exchange : Exchange) tile ifNoneMatch,
      exchange.admitted = true → exchange.existing = some tile →
      isSafeCached200 tile = true →
      exchange.mayServeStale
        (tileWindowsFor env maxStaleSecs exchange.window) tile = true →
      ((exchange.fill env maxStaleSecs ifNoneMatch).outcome.ServesRow tile
          exchange.answeredAt ↔
        exchange.fillNow - tile.fetchedAt <
            (tileWindowsFor env maxStaleSecs exchange.window).freshSecs ∨
          ¬ exchange.Refused env)) ∧
    (∀ (exchange : AssetExchange) kind tile ifNoneMatch,
      exchange.stale = some tile → tile.status = 200 →
      validStoredAsset env kind tile = true →
      exchange.mayServeStale maxStaleSecs tile = true →
      ((exchange.fetchAssetResponse env maxStaleSecs kind
          ifNoneMatch).ServesRow env kind tile exchange.answeredAt ↔
        ¬ exchange.Refused env kind)) ∧
    ∀ (exchange : Exchange) key failure ifNoneMatch,
      fetchUpstream env exchange.first exchange.second = .error failure →
      (exchange.getTile env maxStaleSecs key ifNoneMatch).outcome =
        Warm.getTile env maxStaleSecs key exchange.toTileReads
          ifNoneMatch := by
  refine ⟨?_, ?_, fun _ _ _ _ failed => Exchange.getTile_offline failed⟩
  · intro exchange tile ifNoneMatch admitted existing safe may
    have ok : tile.status = 200 := by
      unfold isSafeCached200 at safe
      exact of_decide_eq_true (Bool.and_eq_true_iff.mp safe).1
    unfold Exchange.fill
    dsimp only
    rw [if_neg (by simp [admitted]), existing]
    dsimp only
    rw [safe, Bool.true_and]
    split
    · next fresh =>
      exact iff_of_true (servesRow_tile false _)
        (.inl (of_decide_eq_true fresh))
    · next old =>
      rw [if_neg (fun negative => negative.1 ok), if_pos rfl,
        Exchange.servesRow_revalidate safe may]
      have expired : ¬ exchange.fillNow - tile.fetchedAt <
          (tileWindowsFor env maxStaleSecs exchange.window).freshSecs :=
        fun fresh => old (decide_eq_true fresh)
      simp only [expired, false_or]
  · intro exchange kind tile ifNoneMatch stored ok valid may
    exact AssetExchange.servesRow_fetchAssetResponse stored ok valid may

end Revalidated

/-- A month after its download a pinned tile is requested, and the upstream
gives one answer. -/
def monthOld (attempt : Attempt) : Exchange where
  source := some sampleChart
  now := 2592000
  cached := some (fetchedTile sampleDeployment (reliefAnswer "image/png") 100)
  slow := false
  admitted := true
  fillNow := 2592000
  window := some sampleChart
  existing := some
    (fetchedTile sampleDeployment (reliefAnswer "image/png") 100)
  retried := some
    (fetchedTile sampleDeployment (reliefAnswer "image/png") 100)
  staleNow := 2592001
  pinned := true
  first := attempt
  second := attempt
  answeredAt := 2592001

def monthOldAsset (attempt : Attempt) : AssetExchange where
  toAssetReads := reliefReads "image/png"
  first := attempt
  second := attempt
  answeredAt := 2592001

/-- The login page which a captive portal answers every request with. -/
def portalPage : Attempt :=
  .answered ⟨200, "text/html", none, [60, 104, 116, 109, 108, 62]⟩

/-- A captive portal hides a stored tile, and a stored asset is hidden by the
portal or by a 404. -/
theorem captivePortal_hides_row :
    (∃ tile, (monthOld portalPage).admitted = true ∧
      (monthOld portalPage).existing = some tile ∧
      isSafeCached200 tile = true ∧
      (monthOld portalPage).mayServeStale (tileWindowsFor sampleDeployment
        86400 (monthOld portalPage).window) tile = true ∧
      ((monthOld portalPage).fill sampleDeployment 86400 none).outcome =
        .unavailable) ∧
    ∃ tile, (reliefReads "image/png").stale = some tile ∧
      tile.status = 200 ∧
      validStoredAsset sampleDeployment .rasterTile tile = true ∧
      (reliefReads "image/png").mayServeStale 86400 tile = true ∧
      (monthOldAsset portalPage).fetchAssetResponse sampleDeployment 86400
        .rasterTile none = .badGateway ∧
      (monthOldAsset (.answered ⟨404, "text/plain", none,
        []⟩)).fetchAssetResponse sampleDeployment 86400 .rasterTile none =
          .notFound := by
  refine ⟨⟨_, rfl, rfl, ?_, ?_, ?_⟩, ⟨_, rfl, rfl, ?_, ?_, ?_, ?_⟩⟩
  all_goals decide

theorem stored_row_served_iff_monthOld :
    ((monthOld .timeout).fill sampleDeployment 86400 none).outcome.ServesRow
        (fetchedTile sampleDeployment (reliefAnswer "image/png") 100)
        2592001 ∧
      ((monthOldAsset .transport).fetchAssetResponse sampleDeployment 86400
        .rasterTile none).ServesRow sampleDeployment .rasterTile
        (fetchedTile sampleDeployment (reliefAnswer "image/png") 100)
        2592001 := by
  have served := @stored_row_served_iff Nat sampleDeployment 86400
  constructor
  · apply (served.1 (monthOld .timeout) _ none rfl rfl (by decide)
      (by decide)).mpr
    right
    rintro ⟨response, answered, _⟩
    cases answered
  · apply (served.2.1 (monthOldAsset .transport) .rasterTile _ none rfl rfl
      (by decide) (by decide)).mpr
    rintro ⟨response, answered, _⟩
    cases answered

end ChartLocker.Warm
