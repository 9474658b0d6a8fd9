import ChartLocker.Cache.Operations

/-!
# The running aggregates of the cache

`totalBytes`, `pinnedBytes` and the memo of the real-region sum are maintained
by hand in ten methods.  The invariant below says that they are exact, and one
lemma for each method shows that the method keeps it.

Two facts about the statements carry the proofs.  A sum which counts only
pinned rows does not see the deletion of unpinned rows, nor the replacement of
an unpinned row by an unpinned row; these are the only writes after which the
memo stays valid.
-/

namespace ChartLocker.Cache

open Library

/-- The predicates which count no unpinned row. -/
def CountsPinned (select : TileRow → Bool) : Prop :=
  ∀ row, row.pinned = false → select row = false

namespace Tables

/-- The tiles counted by the memo: pinned, and joined to a region which is
neither the position-warm region nor one of its staging regions. -/
def realSelect (tables : Tables) (row : TileRow) : Bool :=
  row.pinned && tables.memberWhere (fun id => !isPositionRegion id) row.key

theorem realRegionSum_positionWarm (tables : Tables) :
    tables.realRegionSum positionWarmRegionId =
      tables.sumBytes tables.realSelect := by
  simp only [realRegionSum]
  apply sumBytes_congr
  intro row _
  simp [realSelect, isPositionRegion, bne]

theorem countsPinned_realSelect (tables : Tables) :
    CountsPinned tables.realSelect := by
  intro row unpinned
  simp [realSelect, unpinned]

theorem countsPinned_pinned : CountsPinned TileRow.pinned :=
  fun _ unpinned => unpinned

variable {tables : Tables}

theorem sumBytes_deleteTiles_unpinned {select drop : TileRow → Bool}
    (counts : CountsPinned select)
    (unpinned : ∀ row ∈ tables.tiles.rows,
      drop row = true → row.pinned = false) :
    (tables.deleteTiles drop).sumBytes select = tables.sumBytes select := by
  have nothing :
      tables.sumBytes (fun row => select row && drop row) = 0 := by
    apply sumBytes_eq_zero
    intro row member
    cases dropped : drop row with
    | false => simp
    | true => simp [counts row (unpinned row member dropped)]
  rw [sumBytes_deleteTiles, nothing, sub_zero]

theorem sumBytes_replaceTile_unpinned {key : TileKey} {tile : CachedTile}
    {now : Int} {select : TileRow → Bool} (counts : CountsPinned select)
    (unpinned : (tables.row key).elim false TileRow.pinned = false) :
    (tables.replaceTile key tile now false).sumBytes select =
      tables.sumBytes select := by
  have newUncounted : select ⟨tables.nextRowid, key,
      { tile with lastAccess := now }, false⟩ = false :=
    counts _ rfl
  have oldUncounted : (tables.row key).elim 0
      (KeyedTable.weight select TileRow.bytes) = 0 := by
    cases stored : tables.row key with
    | none => rfl
    | some old =>
        have oldUnpinned : old.pinned = false := by
          simpa [stored] using unpinned
        simp [KeyedTable.weight, counts old oldUnpinned]
  rw [sumBytes_replaceTile, oldUncounted]
  simp [newUncounted]

end Tables

/-- The three aggregates agree with the tables. -/
structure Exact (cache : TileCache) : Prop where
  total : cache.totalBytes = cache.tables.totalSum
  pinned : cache.pinnedBytes = cache.tables.pinnedSum
  memo : cache.regionsDirty = false →
    cache.realRegionCache = cache.tables.sumBytes cache.tables.realSelect

namespace TileCache

variable {cache : TileCache}

theorem exact_opened (deferred : Bool) (found : Tables) :
    Exact (opened deferred found) where
  total := rfl
  pinned := rfl
  memo := by simp [opened]

theorem exact_put (exact : Exact cache) (disk : DiskSpace) (key : TileKey)
    (tile : CachedTile) (pinned : Bool) (now : Int) :
    Exact (cache.put disk key tile pinned now).2 := by
  simp only [put]
  split
  · exact exact
  · split
    · rename_i effective
      refine ⟨?_, ?_, by simp⟩
      · have total := exact.total
        simp only [Tables.totalSum_replaceTile]
        omega
      · have sum := exact.pinned
        simp only [Tables.pinnedSum_replaceTile, effective, if_true]
        omega
    · rename_i ineffective
      have flags : (pinned ||
          (cache.tables.row key).elim false TileRow.pinned) = false := by
        simpa using ineffective
      have wasUnpinned :
          (cache.tables.row key).elim false TileRow.pinned = false :=
        (Bool.or_eq_false_iff.mp flags).2
      simp only [flags]
      refine ⟨?_, ?_, ?_⟩
      · have total := exact.total
        simp only [Tables.totalSum_replaceTile]
        omega
      · exact exact.pinned.trans
          (Tables.sumBytes_replaceTile_unpinned Tables.countsPinned_pinned
            wasUnpinned).symm
      · intro clean
        exact (exact.memo clean).trans
          (Tables.sumBytes_replaceTile_unpinned
            cache.tables.countsPinned_realSelect wasUnpinned).symm

theorem exact_touch (exact : Exact cache) (key : TileKey) (now : Int) :
    Exact (cache.touch key now) where
  total := exact.total.trans
    (cache.tables.sumBytes_touchTile key now fun _ => rfl).symm
  pinned := exact.pinned.trans
    (cache.tables.sumBytes_touchTile key now fun _ => rfl).symm
  memo := fun clean => (exact.memo clean).trans
    (cache.tables.sumBytes_touchTile key now fun _ => rfl).symm

/-! ## Deletions -/

/-- The deletion of unpinned rows, with their sum taken off the total. -/
theorem exact_deleteTiles (exact : Exact cache) {drop : TileRow → Bool}
    (unpinned : ∀ row ∈ cache.tables.tiles.rows,
      drop row = true → row.pinned = false) :
    Exact { cache with
      tables := cache.tables.deleteTiles drop
      totalBytes := cache.totalBytes - cache.tables.sumBytes drop } where
  total := by
    have total := exact.total
    have removed := cache.tables.sumBytes_deleteTiles drop fun _ => true
    simp only [Bool.true_and] at removed
    exact (congrArg (· - cache.tables.sumBytes drop) total).trans
      removed.symm
  pinned := exact.pinned.trans
    (Tables.sumBytes_deleteTiles_unpinned Tables.countsPinned_pinned
      unpinned).symm
  memo := fun clean => (exact.memo clean).trans
    (Tables.sumBytes_deleteTiles_unpinned
      cache.tables.countsPinned_realSelect unpinned).symm

theorem exact_evictUnpinnedWithin (exact : Exact cache) (target : Int) :
    let evicted :=
      evictUnpinnedWithin cache.tables cache.totalBytes target
    Exact { cache with
      tables := evicted.2
      totalBytes := cache.totalBytes - evicted.1 } := by
  unfold evictUnpinnedWithin
  split
  · simpa using exact
  · apply exact_deleteTiles exact
    intro row _ victim
    simp only [Bool.and_eq_true, Bool.not_eq_true'] at victim
    exact victim.1

theorem exact_evictTo (exact : Exact cache) (capBytes : Int) :
    Exact (cache.evictTo capBytes) := by
  unfold evictTo
  split
  · exact exact
  · exact exact_evictUnpinnedWithin exact (evictionTarget capBytes)

/-- A stored row whose rowid a chunk query returned satisfies the query. -/
theorem select_of_mem_chunkRowids {tables : Tables}
    {select : TileRow → Bool} {order : TileRow → TileRow → Bool}
    {row : TileRow} (member : row ∈ tables.tiles.rows)
    (chosen : row.rowid ∈ chunkRowids tables select order) :
    select row = true := by
  obtain ⟨other, otherChosen, sameRowid⟩ := List.mem_map.mp chosen
  have otherFiltered : other ∈ tables.tiles.rows.filter select :=
    List.mem_mergeSort.mp (List.mem_of_mem_take otherChosen)
  have same : other = row :=
    List.inj_on_of_nodup_map tables.rowids
      (List.mem_of_mem_filter otherFiltered) member sameRowid
  exact same ▸ (List.mem_filter.mp otherFiltered).2

theorem exact_deleteUnpinnedChunk (exact : Exact cache)
    {select : TileRow → Bool} (order : TileRow → TileRow → Bool)
    (unpinned : ∀ row, select row = true → row.pinned = false) :
    Exact (cache.deleteUnpinnedChunk
      (chunkRowids cache.tables select order)).2.2 := by
  apply exact_deleteTiles exact
  intro row member chosen
  exact unpinned row
    (select_of_mem_chunkRowids member (by simpa using chosen))

theorem exact_sweepChunk (exact : Exact cache) (cutoff : Int) :
    Exact (cache.sweepChunk cutoff).2.2 := by
  apply exact_deleteUnpinnedChunk exact
  intro row selected
  simp only [Bool.and_eq_true, Bool.not_eq_true'] at selected
  exact selected.1

theorem exact_clearChunk (exact : Exact cache) :
    Exact cache.clearChunk.2.2 := by
  apply exact_deleteUnpinnedChunk exact
  intro row selected
  simpa using selected

/-! ## The pinned batch -/

/-- The counters of a batch move with the sums over its tables. -/
theorem sums_insertRow (progress : PutProgress) (regionId : Option String)
    (now : Int) (row : WarmRow) :
    let next := progress.insertRow regionId now row
    next.tables.totalSum - next.added =
        progress.tables.totalSum - progress.added ∧
      next.tables.pinnedSum - next.pinnedAdded =
        progress.tables.pinnedSum - progress.pinnedAdded := by
  have total := progress.tables.totalSum_replaceTile row.key row.tile now true
  have pinned :=
    progress.tables.pinnedSum_replaceTile row.key row.tile now true
  simp only [if_true] at pinned
  constructor
  · cases regionId <;>
      simp only [PutProgress.insertRow, Tables.totalSum_joinTile, total,
        PutProgress.delta, PutProgress.oldBytes] <;>
      omega
  · cases regionId <;>
      simp only [PutProgress.insertRow, Tables.pinnedSum_joinTile, pinned,
        PutProgress.pinDelta, PutProgress.delta, PutProgress.oldBytes] <;>
      split <;> omega

theorem sums_putRows (budget cap pinnedBase categoryBase : Int)
    (regionId : Option String) (now : Int) (rows : List WarmRow)
    (progress : PutProgress) :
    let final := putRows budget cap pinnedBase categoryBase regionId now rows
      progress
    final.tables.totalSum - final.added =
        progress.tables.totalSum - progress.added ∧
      final.tables.pinnedSum - final.pinnedAdded =
        progress.tables.pinnedSum - progress.pinnedAdded := by
  apply putRows_preserves (motive := fun state =>
    state.tables.totalSum - state.added =
        progress.tables.totalSum - progress.added ∧
      state.tables.pinnedSum - state.pinnedAdded =
        progress.tables.pinnedSum - progress.pinnedAdded)
  · intro state row _ kept
    have moved := sums_insertRow state regionId now row
    exact ⟨moved.1.trans kept.1, moved.2.trans kept.2⟩
  · exact fun _ kept => kept
  · exact ⟨rfl, rfl⟩

theorem exact_putManyPinned (exact : Exact cache) (disk : DiskSpace)
    (rows : List WarmRow) (budget cap : Int) (regionId : Option String)
    (now : Int) :
    Exact (cache.putManyPinned disk rows budget cap regionId now).2 := by
  unfold putManyPinned
  dsimp only
  split
  · exact exact
  · generalize progress : putRows budget cap cache.pinnedBytes
      (cache.tables.categoryBytes regionId) regionId now rows _ = final
    have sums := sums_putRows budget cap cache.pinnedBytes
      (cache.tables.categoryBytes regionId) regionId now rows
      ⟨cache.tables, 0, 0, 0, 0, 0, false⟩
    simp only [progress] at sums
    have inserted : Exact
        { cache with
          tables := final.tables
          totalBytes := cache.totalBytes + final.added
          pinnedBytes := cache.pinnedBytes + final.pinnedAdded
          regionsDirty := true } := by
      have total := exact.total
      have pinned := exact.pinned
      refine ⟨?_, ?_, by simp⟩
      · dsimp only
        omega
      · dsimp only
        omega
    split
    · exact exact_evictUnpinnedWithin inserted (evictionTarget cap)
    · simpa using inserted

/-! ## Pins and regions -/

theorem exact_pinLocked (exact : Exact cache) {key : TileKey}
    {row : TileRow} (stored : cache.tables.row key = some row)
    (regionId : Option String) :
    Exact (cache.pinLocked key regionId row.pinned row.bytes) := by
  have total := exact.total
  have pinned := exact.pinned
  have marked := cache.tables.pinnedSum_pinKey stored
  refine ⟨?_, ?_, by simp [pinLocked]⟩
  · cases regionId <;> simpa [pinLocked] using total
  · cases regionId <;> cases before : row.pinned <;>
      simp only [pinLocked, Tables.pinnedSum_joinTile, marked, before] <;>
      simp [pinned]

theorem exact_pinIfFreshCapped (exact : Exact cache) (key : TileKey)
    (now freshSecs negativeTtlSecs : Int) (budgets : PinBudgets)
    (regionId : Option String) :
    Exact (cache.pinIfFreshCapped key now freshSecs negativeTtlSecs budgets
      regionId).2 := by
  unfold pinIfFreshCapped
  cases stored : cache.tables.row key with
  | none => exact exact
  | some row =>
      dsimp only
      split
      · exact exact
      · split
        · exact exact
        · split
          · exact exact
          · exact exact_pinLocked exact stored regionId

theorem exact_pinForRegion (exact : Exact cache) (key : TileKey)
    (budget : Int) (regionId : Option String) :
    Exact (cache.pinForRegion key budget regionId).2 := by
  unfold pinForRegion
  cases stored : cache.tables.row key with
  | none => exact exact
  | some row =>
      dsimp only
      split
      · exact exact
      · exact exact_pinLocked exact stored regionId

theorem exact_deleteRegion (exact : Exact cache) (regionId : String) :
    Exact (cache.deleteRegion regionId) where
  total := by
    simpa [deleteRegion, Tables.demoteUnreferenced] using exact.total
  pinned := rfl
  memo := by simp [deleteRegion]

theorem exact_cleanupAbandonedStaging (exact : Exact cache) :
    Exact cache.cleanupAbandonedStaging where
  total := by
    simpa [cleanupAbandonedStaging, cleanupAbandonedStagingTables,
      Tables.demoteUnreferenced] using exact.total
  pinned := rfl
  memo := by simp [cleanupAbandonedStaging]

@[simp] theorem totalSum_replaceRegion (tables : Tables)
    (staging target : String) :
    (replaceRegion tables staging target).totalSum = tables.totalSum := by
  simp [replaceRegion]

@[simp] theorem totalSum_replaceRegions
    (replacements : List (String × String)) (tables : Tables) :
    (replaceRegions replacements tables).totalSum = tables.totalSum := by
  induction replacements generalizing tables with
  | nil => rfl
  | cons replacement rest induction =>
      simp [replaceRegions, induction]

theorem exact_promoteStagedRegions (exact : Exact cache)
    (replacements : List (String × String))
    (realBudget positionBudget cap : Int) :
    Exact (cache.promoteStagedRegions replacements realBudget
      positionBudget cap).2 := by
  unfold promoteStagedRegions
  dsimp only
  split
  · exact exact
  · refine ⟨?_, rfl, by simp⟩
    simpa using exact.total

theorem exact_realRegionPinnedBytes (exact : Exact cache) :
    Exact (cache.realRegionPinnedBytes positionWarmRegionId).2 := by
  unfold realRegionPinnedBytes
  split
  · exact exact
  · exact ⟨exact.total, exact.pinned,
      fun _ => cache.tables.realRegionSum_positionWarm⟩

end TileCache

/-- Every call keeps the aggregates exact. -/
theorem Exact.apply {cache : TileCache} (exact : Exact cache)
    (op : CacheOp) : Exact (op.apply cache) := by
  cases op with
  | put disk key tile pinned now =>
      exact TileCache.exact_put exact disk key tile pinned now
  | touch key now => exact TileCache.exact_touch exact key now
  | putManyPinned disk rows budget cap regionId now =>
      exact TileCache.exact_putManyPinned exact disk rows budget cap
        regionId now
  | pinIfFreshCapped key now freshSecs negativeTtlSecs budgets regionId =>
      exact TileCache.exact_pinIfFreshCapped exact key now freshSecs
        negativeTtlSecs budgets regionId
  | pinForRegion key budget regionId =>
      exact TileCache.exact_pinForRegion exact key budget regionId
  | deleteRegion regionId => exact TileCache.exact_deleteRegion exact regionId
  | promoteStagedRegions replacements realBudget positionBudget cap =>
      exact TileCache.exact_promoteStagedRegions exact replacements
        realBudget positionBudget cap
  | evictTo capBytes => exact TileCache.exact_evictTo exact capBytes
  | cleanupAbandonedStaging =>
      exact TileCache.exact_cleanupAbandonedStaging exact
  | sweepChunk cutoff => exact TileCache.exact_sweepChunk exact cutoff
  | clearChunk => exact TileCache.exact_clearChunk exact
  | realRegionPinnedBytes =>
      exact TileCache.exact_realRegionPinnedBytes exact

theorem exact_of_reachable {cache : TileCache}
    (reached : cacheMachine.Reachable cache) : Exact cache := by
  refine reached.invariant ?_ ?_
  · rintro state ⟨deferred, found, rfl⟩
    exact TileCache.exact_opened deferred found
  · intro state op next exact stepped
    obtain rfl : op.apply state = next := Option.some.inj stepped
    exact exact.apply op

/-- In every reachable cache the two running totals are the sums over the
rows, and a valid memo is the sum over the pinned tiles of the real
regions. -/
theorem aggregates_exact {cache : TileCache}
    (reached : cacheMachine.Reachable cache) :
    cache.totalBytes = cache.tables.sumBytes (fun _ => true) ∧
      cache.pinnedBytes = cache.tables.sumBytes (fun row => row.pinned) ∧
      (cache.regionsDirty = false →
        cache.realRegionCache = cache.tables.sumBytes fun row =>
          row.pinned && decide (∃ entry ∈ cache.tables.regionTiles,
            entry.key = row.key ∧
              entry.regionId ≠ positionWarmRegionId ∧
              startsWith entry.regionId positionStagingRegionPrefix =
                false)) := by
  have exact := exact_of_reachable reached
  refine ⟨exact.total, exact.pinned, fun clean => ?_⟩
  refine (exact.memo clean).trans (Tables.sumBytes_congr _ ?_)
  intro row _
  simp [Tables.realSelect, Tables.memberWhere, isPositionRegion]

/-- A stored tile of some size. -/
def sampleTile (bytes : Int) : CachedTile where
  contentType := "image/png"
  strongEtag := ""
  upstreamValidator := none
  status := 200
  fetchedAt := 0
  lastAccess := 0
  bytes := bytes
  blob := some []

/-- A saved region, a live fill, and a reading of the memo. -/
def sampleCalls : List CacheOp :=
  [.putManyPinned ⟨none, 0⟩
      [⟨⟨"osm", 1, 0, 0⟩, sampleTile 30⟩, ⟨⟨"osm", 1, 0, 0⟩, sampleTile 20⟩]
      100 100 (some "harbour") 5,
    .put ⟨none, 0⟩ ⟨"osm", 1, 1, 0⟩ (sampleTile 40) false 6,
    .realRegionPinnedBytes]

def sampleCache : TileCache :=
  sampleCalls.foldl CacheOp.apply (TileCache.opened false Tables.empty)

theorem aggregates_exact_sampleCache :
    sampleCache.totalBytes = 60 ∧ sampleCache.realRegionCache = 20 ∧
      sampleCache.tables.sumBytes (fun row => row.pinned) = 20 := by
  have exact := @aggregates_exact sampleCache
    ⟨_, sampleCalls, ⟨false, Tables.empty, rfl⟩, rfl⟩
  have pinned : sampleCache.pinnedBytes = 20 := by decide
  exact ⟨by decide, by decide, exact.2.1.symm.trans pinned⟩

end ChartLocker.Cache
