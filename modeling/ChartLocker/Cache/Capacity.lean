import ChartLocker.Cache.Pins

/-!
# The pinned set under a fixed cap

Every method which adds to the pinned set compares the sum with the cap
first, except for a live `put` over a row which is pinned already: it keeps
the pin and changes the size.  Under one cap the pinned set therefore stays
within the cap exactly as long as each such write finds room.
-/

namespace ChartLocker.Cache

open Library

/-! ## What is stored -/

/-- Every stored tile has a property. -/
def Tables.Stores (tables : Tables) (good : CachedTile → Prop) : Prop :=
  ∀ row ∈ tables.tiles.rows, good row.tile

/-- A property which does not depend on the last access. -/
def Timeless (good : CachedTile → Prop) : Prop :=
  ∀ tile now, good tile → good { tile with lastAccess := now }

/-- The tiles which a call may write. -/
def CacheOp.writes : CacheOp → List CachedTile
  | .put _ _ tile _ _ => [tile]
  | .putManyPinned _ rows _ _ _ _ => rows.map WarmRow.tile
  | _ => []

def TableStep.writes : TableStep → List CachedTile
  | .put _ tile _ _ => [tile]
  | .insertMember _ row _ => [row.tile]
  | _ => []

namespace Tables

variable {tables : Tables} {good : CachedTile → Prop}

theorem stores_empty : empty.Stores good := by
  intro row member
  cases member

theorem Stores.replaceTile (stores : tables.Stores good)
    (timeless : Timeless good) {tile : CachedTile} (written : good tile)
    (key : TileKey) (now : Int) (pinned : Bool) :
    (tables.replaceTile key tile now pinned).Stores good := by
  intro row member
  rcases KeyedTable.mem_insertOrReplace.mp member with rfl | ⟨old, _⟩
  · exact timeless tile now written
  · exact stores row old

theorem Stores.deleteTiles (stores : tables.Stores good)
    (drop : TileRow → Bool) : (tables.deleteTiles drop).Stores good :=
  fun row member => stores row (KeyedTable.mem_deleteWhere.mp member).1

theorem Stores.setPinned (stores : tables.Stores good)
    (select : TileRow → Bool) (pinned : Bool) :
    (tables.setPinned select pinned).Stores good := by
  intro row member
  obtain ⟨old, stored, rfl⟩ :=
    (KeyedTable.mem_updateWhere (TileRow.key_withPinned pinned)).mp member
  split
  · exact stores old stored
  · exact stores old stored

theorem Stores.touchTile (stores : tables.Stores good)
    (timeless : Timeless good) (key : TileKey) (now : Int) :
    (tables.touchTile key now).Stores good := by
  intro row member
  obtain ⟨old, stored, rfl⟩ :=
    (KeyedTable.mem_updateWhere (TileRow.key_accessed now)).mp member
  split
  · exact timeless old.tile _ (stores old stored)
  · exact stores old stored

theorem Stores.joinOption (stores : tables.Stores good)
    (regionId : Option String) (key : TileKey) :
    (tables.joinOption regionId key).Stores good := by
  cases regionId with
  | none => exact stores
  | some id => exact stores

theorem Stores.apply (stores : tables.Stores good)
    (timeless : Timeless good) (step : TableStep)
    (written : ∀ tile ∈ step.writes, good tile) :
    (step.apply tables).Stores good := by
  cases step with
  | put key tile pinned now =>
      exact stores.replaceTile timeless
        (written tile (by simp [TableStep.writes])) key now _
  | insertMember regionId row now =>
      apply Stores.joinOption
      exact stores.replaceTile timeless
        (written row.tile (by simp [TableStep.writes])) row.key now true
  | pinMember regionId key =>
      simp only [TableStep.apply]
      split
      · exact (stores.setPinned _ true).joinOption regionId key
      · exact stores
  | touch key now => exact stores.touchTile timeless key now
  | deleteUnpinned drop => exact stores.deleteTiles _
  | dropRegions select => exact Stores.setPinned stores _ false
  | replaceRegion staging target =>
      exact Stores.setPinned (Stores.setPinned stores _ false) _ true

end Tables

theorem CacheOp.Performs.writes {op : CacheOp} {step : TableStep}
    (performs : op.Performs step) {tile : CachedTile}
    (member : tile ∈ step.writes) : tile ∈ op.writes := by
  cases op with
  | put disk key written pinned now => cases performs; exact member
  | putManyPinned disk rows budget cap regionId now =>
      rcases performs with ⟨row, batch, rfl⟩ | ⟨drop, rfl⟩
      · obtain rfl : tile = row.tile := by
          simpa [TableStep.writes] using member
        exact List.mem_map_of_mem batch
      · cases member
  | touch key now => cases performs; cases member
  | pinIfFreshCapped key now freshSecs negativeTtlSecs budgets regionId =>
      cases performs; cases member
  | pinForRegion key budget regionId => cases performs; cases member
  | deleteRegion regionId => cases performs; cases member
  | promoteStagedRegions replacements realBudget positionBudget cap =>
      obtain ⟨replacement, _, rfl⟩ := performs
      cases member
  | evictTo capBytes => obtain ⟨drop, rfl⟩ := performs; cases member
  | cleanupAbandonedStaging => cases performs; cases member
  | sweepChunk cutoff => obtain ⟨drop, rfl⟩ := performs; cases member
  | clearChunk => obtain ⟨drop, rfl⟩ := performs; cases member
  | realRegionPinnedBytes => cases performs

theorem stores_apply {good : CachedTile → Prop} (timeless : Timeless good)
    {cache : TileCache} (stores : cache.tables.Stores good) {op : CacheOp}
    (written : ∀ tile ∈ op.writes, good tile) :
    (op.apply cache).tables.Stores good :=
  CacheOp.preserves (motive := fun tables => tables.Stores good)
    (fun _ step performs before =>
      before.apply timeless step fun tile member =>
        written tile (performs.writes member))
    stores

/-! ## One call -/

/-- A tile occupies some bytes. -/
def CachedTile.Sized (tile : CachedTile) : Prop := 0 ≤ tile.bytes

theorem timeless_sized : Timeless CachedTile.Sized :=
  fun _ _ sized => sized

theorem Tables.pinnedSum_demote_le {tables : Tables}
    (sized : tables.Stores CachedTile.Sized) (select : TileRow → Bool) :
    (tables.setPinned select false).pinnedSum ≤ tables.pinnedSum := by
  have kept : (tables.setPinned select false).pinnedSum =
      tables.sumBytes fun row => row.pinned && !select row := by
    simp only [Tables.pinnedSum, Tables.sumBytes_setPinned]
    apply Tables.sumBytes_congr
    intro row _
    cases chosen : select row <;> simp [TileRow.withPinned]
  have split := tables.tiles.sumWhere_split TileRow.pinned select TileRow.bytes
  have demoted : 0 ≤ tables.tiles.sumWhere
      (fun row => row.pinned && select row) TileRow.bytes :=
    KeyedTable.sumWhere_nonneg sized
  rw [kept]
  simp only [Tables.pinnedSum, Tables.sumBytes]
  omega

/-- A call of the running service under one cap: the pinning methods compare
with the cap, and a live fill does not pin. -/
def CacheOp.UnderCap (cap : Int) : CacheOp → Prop
  | .put _ _ tile pinned _ => pinned = false ∧ tile.Sized
  | .putManyPinned _ rows _ physical _ _ =>
      physical = cap ∧ ∀ row ∈ rows, row.tile.Sized
  | .pinIfFreshCapped _ _ _ _ budgets _ => budgets.physicalBytes = cap
  | .promoteStagedRegions _ _ _ physical => physical = cap
  | .evictTo capBytes => capBytes = cap
  | .pinForRegion _ _ _ => False
  | _ => True

/-- A live fill over a pinned row finds room for what it adds. -/
def CacheOp.FindsRoom (cap : Int) (cache : TileCache) : CacheOp → Prop
  | .put disk key tile _ _ =>
      let oldBytes := (cache.tables.row key).elim 0 TileRow.bytes
      cache.isPinned key = true →
        hasDiskHeadroom disk (tile.bytes - oldBytes) = true →
          cache.pinnedBytes + (tile.bytes - oldBytes) ≤ cap
  | _ => True

namespace TileCache

variable {cap : Int} {cache : TileCache}

theorem pinnedAdded_putRows {budget pinnedBase categoryBase : Int}
    {regionId : Option String} {now : Int} {rows : List WarmRow}
    {progress : PutProgress}
    (within : pinnedBase + progress.pinnedAdded ≤ cap) :
    pinnedBase + (putRows budget cap pinnedBase categoryBase regionId now rows
      progress).pinnedAdded ≤ cap := by
  induction rows generalizing progress with
  | nil => exact within
  | cons row rows induction =>
      simp only [putRows]
      split
      · exact within
      · rename_i admitted
        apply induction
        have gate : ¬ (progress.pinDelta row > 0 ∧
            pinnedBase + progress.pinnedAdded + progress.pinDelta row >
              cap) := by
          intro excess
          exact admitted (by simp [PutProgress.exceeds, excess.1, excess.2])
        simp only [PutProgress.insertRow]
        omega

theorem pinnedBytes_putManyPinned (within : cache.pinnedBytes ≤ cap)
    (disk : DiskSpace) (rows : List WarmRow) (budget : Int)
    (regionId : Option String) (now : Int) :
    (cache.putManyPinned disk rows budget cap regionId now).2.pinnedBytes ≤
      cap := by
  simp only [putManyPinned]
  split
  · exact within
  · apply pinnedAdded_putRows
    simpa using within

theorem pinnedBytes_pinIfFreshCapped (within : cache.pinnedBytes ≤ cap)
    (key : TileKey) (now freshSecs negativeTtlSecs : Int)
    (budgets : PinBudgets) (physical : budgets.physicalBytes = cap)
    (regionId : Option String) :
    (cache.pinIfFreshCapped key now freshSecs negativeTtlSecs budgets
      regionId).2.pinnedBytes ≤ cap := by
  unfold pinIfFreshCapped
  cases stored : cache.tables.row key with
  | none => exact within
  | some row =>
      dsimp only
      split
      · exact within
      · split
        · exact within
        · split
          · exact within
          · rename_i admitted
            simp only [pinLocked]
            cases pinned : row.pinned with
            | true => simpa using within
            | false =>
                have gate : ¬ (row.bytes > 0 ∧
                    cache.pinnedBytes + row.bytes > cap) := by
                  rw [physical] at admitted
                  exact fun excess => admitted ⟨pinned, excess⟩
                simp only [Bool.false_eq_true, if_false]
                omega

theorem pinnedBytes_put (disk : DiskSpace) (key : TileKey)
    (tile : CachedTile) (now : Int) :
    let oldBytes := (cache.tables.row key).elim 0 TileRow.bytes
    (cache.put disk key tile false now).2.pinnedBytes =
      if cache.isPinned key = true ∧
          hasDiskHeadroom disk (tile.bytes - oldBytes) = true then
        cache.pinnedBytes + (tile.bytes - oldBytes)
      else
        cache.pinnedBytes := by
  simp only [put, isPinned, Tables.isPinned]
  cases room : hasDiskHeadroom disk
      (tile.bytes - (cache.tables.row key).elim 0 TileRow.bytes) with
  | false => simp
  | true =>
      by_cases pinned : (cache.tables.row key).elim false TileRow.pinned = true
      · simp [pinned]
      · simp [pinned]

/-- A live fill keeps the pinned set within the cap exactly if it finds
room. -/
theorem pinnedBytes_put_le (within : cache.pinnedBytes ≤ cap)
    (disk : DiskSpace) (key : TileKey) (tile : CachedTile) (now : Int) :
    (cache.put disk key tile false now).2.pinnedBytes ≤ cap ↔
      CacheOp.FindsRoom cap cache (.put disk key tile false now) := by
  rw [pinnedBytes_put]
  simp only [CacheOp.FindsRoom]
  split
  · rename_i grows
    exact ⟨fun room _ _ => room, fun room => room grows.1 grows.2⟩
  · rename_i stays
    exact ⟨fun _ pinned headroom => absurd ⟨pinned, headroom⟩ stays,
      fun _ => within⟩

end TileCache

/-- What holds of the cache between two calls. -/
structure WithinCap (cap : Int) (cache : TileCache) : Prop where
  exact : Exact cache
  sized : cache.tables.Stores CachedTile.Sized
  pinned : cache.pinnedBytes ≤ cap

theorem CacheOp.UnderCap.sized {cap : Int} {op : CacheOp}
    (under : op.UnderCap cap) : ∀ tile ∈ op.writes, tile.Sized := by
  intro tile member
  cases op with
  | put disk key written pinned now =>
      obtain rfl : tile = written := by simpa [CacheOp.writes] using member
      exact under.2
  | putManyPinned disk rows budget physical regionId now =>
      obtain ⟨row, batch, rfl⟩ := List.mem_map.mp member
      exact under.2 row batch
  | _ => cases member

/-- One call under the cap keeps the pinned set within it exactly if a live
fill finds room. -/
theorem pinnedBytes_apply_le {cap : Int} {cache : TileCache}
    (within : WithinCap cap cache) {op : CacheOp} (under : op.UnderCap cap) :
    (op.apply cache).pinnedBytes ≤ cap ↔ op.FindsRoom cap cache := by
  have demoted : ∀ select,
      (cache.tables.setPinned select false).pinnedSum ≤ cap := by
    intro select
    have fewer := Tables.pinnedSum_demote_le within.sized select
    have sum := within.exact.pinned
    have bound := within.pinned
    omega
  cases op with
  | put disk key tile pinned now =>
      obtain ⟨rfl, _⟩ := under
      exact TileCache.pinnedBytes_put_le within.pinned disk key tile now
  | touch key now => exact iff_of_true within.pinned trivial
  | putManyPinned disk rows budget physical regionId now =>
      obtain ⟨rfl, _⟩ := under
      apply iff_of_true _ trivial
      exact TileCache.pinnedBytes_putManyPinned within.pinned disk rows budget
        regionId now
  | pinIfFreshCapped key now freshSecs negativeTtlSecs budgets regionId =>
      apply iff_of_true _ trivial
      exact TileCache.pinnedBytes_pinIfFreshCapped within.pinned key now
        freshSecs negativeTtlSecs budgets under regionId
  | pinForRegion key budget regionId => exact under.elim
  | deleteRegion regionId => exact iff_of_true (demoted _) trivial
  | promoteStagedRegions replacements realBudget positionBudget physical =>
      obtain rfl : physical = cap := under
      apply iff_of_true _ trivial
      simp only [CacheOp.apply, TileCache.promoteStagedRegions]
      split
      · exact within.pinned
      · rename_i admitted
        exact Int.not_lt.mp fun excess => admitted (.inl excess)
  | evictTo capBytes =>
      apply iff_of_true _ trivial
      simp only [CacheOp.apply, TileCache.evictTo]
      split
      · exact within.pinned
      · exact within.pinned
  | cleanupAbandonedStaging => exact iff_of_true (demoted _) trivial
  | sweepChunk cutoff => exact iff_of_true within.pinned trivial
  | clearChunk => exact iff_of_true within.pinned trivial
  | realRegionPinnedBytes =>
      apply iff_of_true _ trivial
      simp only [CacheOp.apply, TileCache.realRegionPinnedBytes]
      split
      · exact within.pinned
      · exact within.pinned

theorem WithinCap.apply {cap : Int} {cache : TileCache}
    (within : WithinCap cap cache) {op : CacheOp} (under : op.UnderCap cap)
    (room : op.FindsRoom cap cache) : WithinCap cap (op.apply cache) where
  exact := within.exact.apply op
  sized := stores_apply timeless_sized within.sized under.sized
  pinned := (pinnedBytes_apply_le within under).mpr room

end ChartLocker.Cache
