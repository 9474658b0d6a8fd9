import ChartLocker.Cache.Pins

/-!
# What is stored under a key

A method writes rows which its caller hands it, and otherwise only moves the
flags, the memberships and the time of the last access.  A relation between a
key and its tile which ignores that time is therefore kept by every call whose
written rows are related.
-/

namespace ChartLocker.Cache

open Library

/-- Every stored tile is related to its key. -/
def Tables.Relates (tables : Tables) (good : TileKey → CachedTile → Prop) :
    Prop :=
  ∀ row ∈ tables.tiles.rows, good row.key row.tile

/-- A relation which does not depend on the last access. -/
def Ageless (good : TileKey → CachedTile → Prop) : Prop :=
  ∀ key tile now, good key tile → good key { tile with lastAccess := now }

/-- The rows which a call may write. -/
def CacheOp.writtenRows : CacheOp → List WarmRow
  | .put _ key tile _ _ => [⟨key, tile⟩]
  | .putManyPinned _ rows _ _ _ _ => rows
  | _ => []

def TableStep.writtenRows : TableStep → List WarmRow
  | .put key tile _ _ => [⟨key, tile⟩]
  | .insertMember _ row _ => [row]
  | _ => []

namespace Tables

variable {tables : Tables} {good : TileKey → CachedTile → Prop}

theorem Relates.replaceTile (relates : tables.Relates good)
    (ageless : Ageless good) {key : TileKey} {tile : CachedTile}
    (written : good key tile) (now : Int) (pinned : Bool) :
    (tables.replaceTile key tile now pinned).Relates good := by
  intro row member
  cases KeyedTable.mem_insertOrReplace.mp member with
  | inl same =>
      cases same
      exact ageless key tile now written
  | inr kept => exact relates row kept.1

theorem Relates.deleteTiles (relates : tables.Relates good)
    (drop : TileRow → Bool) : (tables.deleteTiles drop).Relates good :=
  fun row member => relates row (KeyedTable.mem_deleteWhere.mp member).1

theorem Relates.setPinned (relates : tables.Relates good)
    (select : TileRow → Bool) (pinned : Bool) :
    (tables.setPinned select pinned).Relates good := by
  intro row member
  obtain ⟨old, stored, rfl⟩ :=
    (KeyedTable.mem_updateWhere (TileRow.key_withPinned pinned)).mp member
  split
  · exact relates old stored
  · exact relates old stored

theorem Relates.touchTile (relates : tables.Relates good)
    (ageless : Ageless good) (key : TileKey) (now : Int) :
    (tables.touchTile key now).Relates good := by
  intro row member
  obtain ⟨old, stored, rfl⟩ :=
    (KeyedTable.mem_updateWhere (TileRow.key_accessed now)).mp member
  split
  · exact ageless old.key old.tile _ (relates old stored)
  · exact relates old stored

theorem Relates.joinOption (relates : tables.Relates good)
    (regionId : Option String) (key : TileKey) :
    (tables.joinOption regionId key).Relates good := by
  cases regionId with
  | none => exact relates
  | some id => exact relates

theorem Relates.apply (relates : tables.Relates good)
    (ageless : Ageless good) (step : TableStep)
    (written : ∀ row ∈ step.writtenRows, good row.key row.tile) :
    (step.apply tables).Relates good := by
  cases step with
  | put key tile pinned now =>
      exact relates.replaceTile ageless
        (written ⟨key, tile⟩ List.mem_cons_self) now _
  | insertMember regionId row now =>
      apply Relates.joinOption
      exact relates.replaceTile ageless (written row List.mem_cons_self) now
        true
  | pinMember regionId key =>
      simp only [TableStep.apply]
      split
      · exact (relates.setPinned _ true).joinOption regionId key
      · exact relates
  | touch key now => exact relates.touchTile ageless key now
  | deleteUnpinned drop => exact relates.deleteTiles _
  | dropRegions select => exact Relates.setPinned relates _ false
  | replaceRegion staging target =>
      exact Relates.setPinned (Relates.setPinned relates _ false) _ true

end Tables

theorem CacheOp.Performs.writtenRows {op : CacheOp} {step : TableStep}
    (performs : op.Performs step) {row : WarmRow}
    (member : row ∈ step.writtenRows) : row ∈ op.writtenRows := by
  cases op with
  | put disk key written pinned now => cases performs; exact member
  | putManyPinned disk rows budget cap regionId now =>
      rcases performs with ⟨other, batch, rfl⟩ | ⟨drop, rfl⟩
      · cases List.mem_singleton.mp member
        exact batch
      · cases member
  | touch key now => cases performs; cases member
  | pinIfFreshCapped key now freshSecs negativeTtlSecs budgets regionId =>
      cases performs; cases member
  | pinForRegion key budget regionId => cases performs; cases member
  | deleteRegion regionId => cases performs; cases member
  | promoteStagedRegions replacements realBudget positionBudget cap =>
      obtain ⟨replacement, _, rfl⟩ := performs
      cases member
  | evictTo capBytes => obtain ⟨drop, rfl⟩ := performs; cases member
  | cleanupAbandonedStaging => cases performs; cases member
  | sweepChunk cutoff => obtain ⟨drop, rfl⟩ := performs; cases member
  | clearChunk => obtain ⟨drop, rfl⟩ := performs; cases member
  | realRegionPinnedBytes => cases performs

theorem relates_apply {good : TileKey → CachedTile → Prop}
    (ageless : Ageless good) {cache : TileCache}
    (relates : cache.tables.Relates good) {op : CacheOp}
    (written : ∀ row ∈ op.writtenRows, good row.key row.tile) :
    (op.apply cache).tables.Relates good := by
  refine CacheOp.preserves (motive := fun tables => tables.Relates good) ?_
    relates
  intro tables step performs before
  apply before.apply ageless step
  intro row member
  exact written row (performs.writtenRows member)

end ChartLocker.Cache
