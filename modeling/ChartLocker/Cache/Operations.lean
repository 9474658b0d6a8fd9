import ChartLocker.Cache.Tables
import ChartLocker.Library.Machine
import Mathlib.Data.List.Sort

/-!
# The methods of `TileCache`

`TileCache` holds the database and the four fields of `Inner` which its
methods maintain by hand: the running totals and the memo of the real-region
sum.  Every method runs under the connection lock, so that one call is one
step.  Statements do not fail here; the free space which the headroom checks
observe is an argument.

Byte counts are integers without a width: the sums which the methods form stay
far below `i64`, and the two saturating operations are written out.
-/

namespace ChartLocker.Cache

open Library

def evictionHysteresisBytes : Int := 64 * 1024 * 1024

def deleteChunk : Nat := 4096

def minFreeHeadroomBytes : Nat := 256 * 1024 * 1024

def saturatingAddU64 (left right : Nat) : Nat :=
  min (left + right) (2 ^ 64 - 1)

def saturatingAddI64 (left right : Int) : Int :=
  max (-2 ^ 63) (min (2 ^ 63 - 1) (left + right))

def evictionTarget (capBytes : Int) : Int :=
  if capBytes ≥ evictionHysteresisBytes * 2 then
    capBytes - min evictionHysteresisBytes (capBytes / 100)
  else
    capBytes

/-- What the file system and the freelist report; `available` is `none` where
the platform cannot tell. -/
structure DiskSpace where
  available : Option Nat
  reusable : Nat
deriving DecidableEq, Repr

def hasHeadroom (available reusable additional : Nat) : Bool :=
  decide (saturatingAddU64 minFreeHeadroomBytes additional ≤
    saturatingAddU64 available reusable)

def hasDiskHeadroom (disk : DiskSpace) (additionalBytes : Int) : Bool :=
  if additionalBytes ≤ 0 then
    true
  else
    match disk.available with
    | some available =>
        hasHeadroom available disk.reusable additionalBytes.toNat
    | none => true

structure WarmRow where
  key : TileKey
  tile : CachedTile
deriving DecidableEq, Repr

inductive PutOutcome where
  | stored
  | degraded
deriving DecidableEq, Repr

structure PutManyOutcome where
  stored : Nat
  bytesAdded : Int
  capped : Bool
deriving DecidableEq, Repr

def PutManyOutcome.diskPressure : PutManyOutcome where
  stored := 0
  bytesAdded := 0
  capped := true

inductive FreshPinOutcome where
  | pinned
  | missingOrStale
  | capped
deriving DecidableEq, Repr

structure PinBudgets where
  categoryBytes : Int
  physicalBytes : Int
deriving DecidableEq, Repr

structure TileCache where
  tables : Tables
  totalBytes : Int
  pinnedBytes : Int
  realRegionCache : Int
  regionsDirty : Bool

namespace TileCache

def cleanupAbandonedStagingTables (tables : Tables) : Tables :=
  (tables.dropRegions fun id =>
    startsWith id stagingRegionPrefix).demoteUnreferenced

/-- `TileCache::open` over the tables found on disk.  The staging cleanup is
deferred with the vacuum when the disk is full. -/
def opened (deferred : Bool) (found : Tables) : TileCache :=
  let tables := if deferred then found else cleanupAbandonedStagingTables found
  { tables := tables
    totalBytes := tables.totalSum
    pinnedBytes := tables.pinnedSum
    realRegionCache := 0
    regionsDirty := true }

def get (cache : TileCache) (key : TileKey) : Option CachedTile :=
  cache.tables.get key

def isPinned (cache : TileCache) (key : TileKey) : Bool :=
  cache.tables.isPinned key

def put (cache : TileCache) (disk : DiskSpace) (key : TileKey)
    (tile : CachedTile) (pinned : Bool) (now : Int) :
    PutOutcome × TileCache :=
  let previous := cache.tables.row key
  let oldBytes := previous.elim 0 TileRow.bytes
  let wasPinned := previous.elim false TileRow.pinned
  if hasDiskHeadroom disk (tile.bytes - oldBytes) = false then
    (.degraded, cache)
  else
    let effectivePinned := pinned || wasPinned
    let tables := cache.tables.replaceTile key tile now effectivePinned
    let total := cache.totalBytes + (tile.bytes - oldBytes)
    if effectivePinned then
      (.stored, { cache with
        tables := tables
        totalBytes := total
        pinnedBytes := cache.pinnedBytes +
          (tile.bytes - if wasPinned then oldBytes else 0)
        regionsDirty := true })
    else
      (.stored, { cache with tables := tables, totalBytes := total })

def touch (cache : TileCache) (key : TileKey) (now : Int) : TileCache :=
  { cache with tables := cache.tables.touchTile key now }

/-- The order of the eviction window, `ORDER BY last_access ASC, rowid ASC`. -/
def olderOrSame (left right : TileRow) : Bool :=
  decide (left.tile.lastAccess < right.tile.lastAccess) ||
    (decide (left.tile.lastAccess = right.tile.lastAccess) &&
      decide (left.rowid ≤ right.rowid))

/-- `SUM(bytes) OVER (ORDER BY last_access ASC, rowid ASC) - bytes` among the
unpinned rows. -/
def priorBytes (tables : Tables) (row : TileRow) : Int :=
  tables.sumBytes (fun other => !other.pinned && olderOrSame other row) -
    row.bytes

def evictUnpinnedWithin (tables : Tables) (currentTotal target : Int) :
    Int × Tables :=
  if currentTotal ≤ target then
    (0, tables)
  else
    let toFree := currentTotal - target
    let victim := fun row : TileRow =>
      !row.pinned && decide (priorBytes tables row < toFree)
    (tables.sumBytes victim, tables.deleteTiles victim)

def evictTo (cache : TileCache) (capBytes : Int) : TileCache :=
  if cache.totalBytes ≤ capBytes then
    cache
  else
    let evicted := evictUnpinnedWithin cache.tables cache.totalBytes
      (evictionTarget capBytes)
    { cache with
      tables := evicted.2
      totalBytes := cache.totalBytes - evicted.1 }

/-- The rowids selected by a chunk subquery: the rows of a filter in a total
order, up to `DELETE_CHUNK`. -/
def chunkRowids (tables : Tables) (select : TileRow → Bool)
    (order : TileRow → TileRow → Bool) : List Nat :=
  (((tables.tiles.rows.filter select).mergeSort order).take deleteChunk).map
    TileRow.rowid

/-- One iteration of the loop in `delete_unpinned_chunks`: the freed bytes,
the freed rows and the cache after it. -/
def deleteUnpinnedChunk (cache : TileCache) (rowids : List Nat) :
    Int × Nat × TileCache :=
  let chosen := fun row : TileRow => decide (row.rowid ∈ rowids)
  let chunkBytes := cache.tables.sumBytes chosen
  let count := (cache.tables.tiles.rows.filter chosen).length
  (chunkBytes, count,
    { cache with
      tables := cache.tables.deleteTiles chosen
      totalBytes := cache.totalBytes - chunkBytes })

def sweepChunk (cache : TileCache) (cutoff : Int) : Int × Nat × TileCache :=
  cache.deleteUnpinnedChunk
    (chunkRowids cache.tables
      (fun row => !row.pinned && decide (row.tile.lastAccess < cutoff))
      olderOrSame)

def clearChunk (cache : TileCache) : Int × Nat × TileCache :=
  cache.deleteUnpinnedChunk
    (chunkRowids cache.tables (fun row => !row.pinned)
      (fun left right => decide (left.rowid ≤ right.rowid)))

/-- `batch_physical_growth_conn`: the map holds the bytes of the keys which
occurred earlier in the batch. -/
def batchPhysicalGrowth (tables : Tables) :
    List WarmRow → (TileKey → Option Int) → Int → Int
  | [], _, growth => growth
  | row :: rows, current, growth =>
      let oldBytes := (current row.key).getD
        ((tables.row row.key).elim 0 TileRow.bytes)
      batchPhysicalGrowth tables rows
        (fun key => if key = row.key then some row.tile.bytes else current key)
        (saturatingAddI64 growth (max (row.tile.bytes - oldBytes) 0))

/-- The locals of the insert loop in `put_many_pinned`. -/
structure PutProgress where
  tables : Tables
  added : Int
  reportedAdded : Int
  pinnedAdded : Int
  categoryAdded : Int
  stored : Nat
  capped : Bool

namespace PutProgress

def oldBytes (progress : PutProgress) (key : TileKey) : Int :=
  (progress.tables.row key).elim 0 TileRow.bytes

def delta (progress : PutProgress) (row : WarmRow) : Int :=
  row.tile.bytes - progress.oldBytes row.key

def pinDelta (progress : PutProgress) (row : WarmRow) : Int :=
  if (progress.tables.row row.key).elim false TileRow.pinned then
    progress.delta row
  else
    row.tile.bytes

def categoryDelta (progress : PutProgress) (regionId : Option String)
    (row : WarmRow) : Int :=
  if progress.tables.keyInCategory row.key regionId then
    progress.delta row
  else
    row.tile.bytes

/-- The two `break` conditions of the loop. -/
def exceeds (progress : PutProgress) (budget cap pinnedBase categoryBase : Int)
    (regionId : Option String) (row : WarmRow) : Bool :=
  (decide (progress.pinDelta row > 0) &&
    decide (pinnedBase + progress.pinnedAdded + progress.pinDelta row > cap)) ||
  (decide (progress.categoryDelta regionId row > 0) &&
    decide (categoryBase + progress.categoryAdded +
      progress.categoryDelta regionId row > budget))

/-- The rest of the loop body: insert the tile and its membership. -/
def insertRow (progress : PutProgress) (regionId : Option String) (now : Int)
    (row : WarmRow) : PutProgress :=
  let inserted := progress.tables.replaceTile row.key row.tile now true
  { tables :=
      match regionId with
      | some id => inserted.joinTile id row.key
      | none => inserted
    added := progress.added + progress.delta row
    reportedAdded := progress.reportedAdded + max (progress.delta row) 0
    pinnedAdded := progress.pinnedAdded + progress.pinDelta row
    categoryAdded := progress.categoryAdded +
      progress.categoryDelta regionId row
    stored := progress.stored + 1
    capped := progress.capped }

end PutProgress

def putRows (budget cap pinnedBase categoryBase : Int)
    (regionId : Option String) (now : Int) :
    List WarmRow → PutProgress → PutProgress
  | [], progress => progress
  | row :: rows, progress =>
      if progress.exceeds budget cap pinnedBase categoryBase regionId row then
        { progress with capped := true }
      else
        putRows budget cap pinnedBase categoryBase regionId now rows
          (progress.insertRow regionId now row)

/-- The loop inserts a first part of the batch, and is capped exactly when
something is left. -/
theorem putRows_eq_foldl (budget cap pinnedBase categoryBase : Int)
    (regionId : Option String) (now : Int) (rows : List WarmRow)
    (progress : PutProgress) :
    ∃ taken left, rows = taken ++ left ∧
      putRows budget cap pinnedBase categoryBase regionId now rows progress =
        { taken.foldl (fun state row => state.insertRow regionId now row)
            progress with
          capped := progress.capped || !left.isEmpty } := by
  induction rows generalizing progress with
  | nil => exact ⟨[], [], rfl, by simp [putRows]⟩
  | cons row rows induction =>
      simp only [putRows]
      split
      · exact ⟨[], row :: rows, rfl, by simp⟩
      · obtain ⟨taken, left, rfl, same⟩ :=
          induction (progress.insertRow regionId now row)
        exact ⟨row :: taken, left, rfl, same⟩

/-- The loop rule: what every insertion keeps, the loop keeps. -/
theorem putRows_preserves {motive : PutProgress → Prop}
    {regionId : Option String} {now : Int} {rows : List WarmRow}
    (inserted : ∀ progress, ∀ row ∈ rows, motive progress →
      motive (progress.insertRow regionId now row))
    (marked : ∀ progress, motive progress →
      motive { progress with capped := true })
    (budget cap pinnedBase categoryBase : Int) {progress : PutProgress}
    (starts : motive progress) :
    motive (putRows budget cap pinnedBase categoryBase regionId now rows
      progress) := by
  induction rows generalizing progress with
  | nil => exact starts
  | cons row rows induction =>
      simp only [putRows]
      split
      · exact marked progress starts
      · exact induction
          (fun state other member =>
            inserted state other (List.mem_cons_of_mem row member))
          (inserted progress row List.mem_cons_self starts)

def putManyPinned (cache : TileCache) (disk : DiskSpace) (rows : List WarmRow)
    (budget cap : Int) (regionId : Option String) (now : Int) :
    PutManyOutcome × TileCache :=
  let requestedGrowth :=
    batchPhysicalGrowth cache.tables rows (fun _ => none) 0
  if hasDiskHeadroom disk requestedGrowth = false then
    (.diskPressure, cache)
  else
    let progress := putRows budget cap cache.pinnedBytes
      (cache.tables.categoryBytes regionId) regionId now rows
      { tables := cache.tables
        added := 0
        reportedAdded := 0
        pinnedAdded := 0
        categoryAdded := 0
        stored := 0
        capped := false }
    let newTotal := cache.totalBytes + progress.added
    let evicted :=
      if newTotal > cap then
        evictUnpinnedWithin progress.tables newTotal (evictionTarget cap)
      else
        (0, progress.tables)
    ({ stored := progress.stored
       bytesAdded := progress.reportedAdded
       capped := progress.capped },
      { cache with
        tables := evicted.2
        totalBytes := newTotal - evicted.1
        pinnedBytes := cache.pinnedBytes + progress.pinnedAdded
        regionsDirty := true })

def pinLocked (cache : TileCache) (key : TileKey) (regionId : Option String)
    (wasPinned : Bool) (tileBytes : Int) : TileCache :=
  let marked := cache.tables.setPinned (fun row => decide (row.key = key)) true
  let joined := match regionId with
    | some id => marked.joinTile id key
    | none => marked
  { cache with
    tables := joined
    pinnedBytes :=
      if wasPinned then cache.pinnedBytes else cache.pinnedBytes + tileBytes
    regionsDirty := true }

def isFresh (tile : CachedTile) (now freshSecs negativeTtlSecs : Int) : Bool :=
  (decide (tile.status = 200) && decide (now - tile.fetchedAt < freshSecs)) ||
    (decide (tile.status ≠ 200) &&
      decide (now - tile.fetchedAt < negativeTtlSecs))

def pinIfFreshCapped (cache : TileCache) (key : TileKey)
    (now freshSecs negativeTtlSecs : Int) (budgets : PinBudgets)
    (regionId : Option String) : FreshPinOutcome × TileCache :=
  match cache.tables.row key with
  | none => (.missingOrStale, cache)
  | some row =>
      if isFresh row.tile now freshSecs negativeTtlSecs = false then
        (.missingOrStale, cache)
      else if cache.tables.keyInCategory key regionId = false ∧
          row.bytes > 0 ∧
          cache.tables.categoryBytes regionId + row.bytes >
            budgets.categoryBytes then
        (.capped, cache)
      else if row.pinned = false ∧ row.bytes > 0 ∧
          cache.pinnedBytes + row.bytes > budgets.physicalBytes then
        (.capped, cache)
      else
        (.pinned, cache.pinLocked key regionId row.pinned row.bytes)

def pinForRegion (cache : TileCache) (key : TileKey) (budget : Int)
    (regionId : Option String) : Bool × TileCache :=
  match cache.tables.row key with
  | none => (false, cache)
  | some row =>
      if cache.tables.keyInCategory key regionId = false ∧ row.bytes > 0 ∧
          cache.tables.categoryBytes regionId + row.bytes > budget then
        (false, cache)
      else
        (true, cache.pinLocked key regionId row.pinned row.bytes)

def deleteRegion (cache : TileCache) (regionId : String) : TileCache :=
  let tables :=
    (cache.tables.dropRegions fun id => id == regionId).demoteUnreferenced
  { cache with
    tables := tables
    pinnedBytes := tables.pinnedSum
    regionsDirty := true }

def cleanupAbandonedStaging (cache : TileCache) : TileCache :=
  let tables := cleanupAbandonedStagingTables cache.tables
  { cache with
    tables := tables
    pinnedBytes := tables.pinnedSum
    regionsDirty := true }

/-- The four statements which `promote_staged_regions` executes for one
replacement of a target region by its staging region. -/
def replaceRegion (tables : Tables) (staging target : String) : Tables :=
  let demoted := tables.setPinned
    (fun row => row.pinned &&
      (tables.memberWhere (fun id => id == target) row.key &&
        !tables.memberWhere (fun id => id != target) row.key))
    false
  let dropped := demoted.dropRegions fun id => id == target
  let renamed := dropped.renameRegion staging target
  renamed.setPinned
    (fun row => renamed.memberWhere (fun id => id == target) row.key) true

def replaceRegions : List (String × String) → Tables → Tables
  | [], tables => tables
  | (staging, target) :: rest, tables =>
      replaceRegions rest (replaceRegion tables staging target)

def promoteStagedRegions (cache : TileCache)
    (replacements : List (String × String))
    (realBudget positionBudget cap : Int) : Bool × TileCache :=
  let tables := replaceRegions replacements cache.tables
  if tables.pinnedSum > cap ∨
      tables.categoryBytes (some basemapAssetsRegionId) > realBudget ∨
      tables.categoryBytes (some positionWarmRegionId) > positionBudget then
    (false, cache)
  else
    (true, { cache with
      tables := tables
      pinnedBytes := tables.pinnedSum
      regionsDirty := true })

def realRegionPinnedBytes (cache : TileCache) (positionId : String) :
    Int × TileCache :=
  if cache.regionsDirty = false then
    (cache.realRegionCache, cache)
  else
    let value := cache.tables.realRegionSum positionId
    (value, { cache with realRegionCache := value, regionsDirty := false })

end TileCache

/-! ## Calls -/

/-- One call of a method which writes the cache, with the values which it
reads from outside. -/
inductive CacheOp where
  | put (disk : DiskSpace) (key : TileKey) (tile : CachedTile)
      (pinned : Bool) (now : Int)
  | touch (key : TileKey) (now : Int)
  | putManyPinned (disk : DiskSpace) (rows : List WarmRow)
      (budget cap : Int) (regionId : Option String) (now : Int)
  | pinIfFreshCapped (key : TileKey) (now freshSecs negativeTtlSecs : Int)
      (budgets : PinBudgets) (regionId : Option String)
  | pinForRegion (key : TileKey) (budget : Int) (regionId : Option String)
  | deleteRegion (regionId : String)
  | promoteStagedRegions (replacements : List (String × String))
      (realBudget positionBudget cap : Int)
  | evictTo (capBytes : Int)
  | cleanupAbandonedStaging
  | sweepChunk (cutoff : Int)
  | clearChunk
  | realRegionPinnedBytes

def CacheOp.apply (cache : TileCache) : CacheOp → TileCache
  | .put disk key tile pinned now => (cache.put disk key tile pinned now).2
  | .touch key now => cache.touch key now
  | .putManyPinned disk rows budget cap regionId now =>
      (cache.putManyPinned disk rows budget cap regionId now).2
  | .pinIfFreshCapped key now freshSecs negativeTtlSecs budgets regionId =>
      (cache.pinIfFreshCapped key now freshSecs negativeTtlSecs budgets
        regionId).2
  | .pinForRegion key budget regionId =>
      (cache.pinForRegion key budget regionId).2
  | .deleteRegion regionId => cache.deleteRegion regionId
  | .promoteStagedRegions replacements realBudget positionBudget cap =>
      (cache.promoteStagedRegions replacements realBudget positionBudget cap).2
  | .evictTo capBytes => cache.evictTo capBytes
  | .cleanupAbandonedStaging => cache.cleanupAbandonedStaging
  | .sweepChunk cutoff => (cache.sweepChunk cutoff).2.2
  | .clearChunk => cache.clearChunk.2.2
  | .realRegionPinnedBytes =>
      (cache.realRegionPinnedBytes positionWarmRegionId).2

/-- The cache of one process over the tables it found on disk, under calls in
any order. -/
def cacheMachine : Machine TileCache CacheOp where
  initial cache := ∃ deferred found, cache = TileCache.opened deferred found
  step cache op := some (op.apply cache)

end ChartLocker.Cache
