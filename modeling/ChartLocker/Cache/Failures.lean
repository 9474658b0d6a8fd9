import ChartLocker.Cache.Statements

/-!
# Failing statements

Without a failing statement a script does what its method does.  With one, a
method which reports an error leaves the cache as it was, unless the statement
follows a commit.
-/

namespace ChartLocker.Cache

open Library Library.Script

/-! ## Scripts perform the methods -/

namespace Statements

/-- Without a failure the script returns a value and leaves a cache. -/
def Performs {α : Type} (script : CacheScript α) (cache : TileCache)
    (value : α) (after : TileCache) : Prop :=
  Returns script cache.tables cache.counters value after.tables after.counters

section Performs

variable {cache : TileCache} {tables : Tables} {counters : Counters}

theorem returns_hasDiskHeadroomConn (disk : DiskSpace) (additional : Int) :
    Returns (hasDiskHeadroomConn disk additional) tables counters
      (hasDiskHeadroom disk additional) tables counters := by
  unfold hasDiskHeadroomConn hasDiskHeadroom
  split
  · exact returns_pure true tables counters
  · refine Returns.bind (Returns.attempt (Returns.bind
      (returns_query _ tables counters) (returns_query _ tables counters))) ?_
    exact returns_pure _ tables counters

theorem performs_put (disk : DiskSpace) (key : TileKey) (tile : CachedTile)
    (pinned : Bool) (now : Int) :
    Performs (put disk key tile pinned now) cache
      (cache.put disk key tile pinned now).1
      (cache.put disk key tile pinned now).2 := by
  unfold Performs put TileCache.put
  refine Returns.bind (returns_query _ _ _) ?_
  refine Returns.bind (returns_hasDiskHeadroomConn disk _) ?_
  cases room : hasDiskHeadroom disk
      (tile.bytes - (cache.tables.row key).elim 0 TileRow.bytes) with
  | false =>
      simp only [room, Bool.false_eq_true, if_true, if_false]
      exact returns_pure _ _ _
  | true =>
      simp only [room, Bool.true_eq_false, if_true, if_false]
      refine Returns.bind (Returns.attempt (returns_execute _ _ _)) ?_
      refine Returns.bind (returns_remember _ _ _) ?_
      cases (pinned || (cache.tables.row key).elim false TileRow.pinned) <;>
        exact returns_pure _ _ _

theorem performs_touch (key : TileKey) (now : Int) :
    Performs (touch key now) cache () (cache.touch key now) :=
  returns_execute _ _ _

theorem returns_evictUnpinnedWithin (total target : Int) :
    Returns (evictUnpinnedWithin total target) tables counters
      (TileCache.evictUnpinnedWithin tables total target).1
      (TileCache.evictUnpinnedWithin tables total target).2 counters := by
  unfold evictUnpinnedWithin
  split
  · next within =>
    unfold TileCache.evictUnpinnedWithin
    rw [if_pos within]
    exact returns_pure _ _ _
  · exact returns_statement _ _ _

theorem performs_evictTo (capBytes : Int) :
    Performs (evictTo capBytes) cache () (cache.evictTo capBytes) := by
  unfold Performs evictTo TileCache.evictTo
  refine Returns.bind (returns_consult _ _ _) ?_
  by_cases within : cache.totalBytes ≤ capBytes
  · have same : cache.counters.totalBytes ≤ capBytes := within
    rw [if_pos same, if_pos within]
    exact returns_pure _ _ _
  · have same : ¬ cache.counters.totalBytes ≤ capBytes := within
    rw [if_neg same, if_neg within]
    refine Returns.bind (Returns.transaction
      (returns_evictUnpinnedWithin _ _)) ?_
    exact returns_remember _ _ _

theorem performs_deleteUnpinnedChunk (subquery : Tables → List Nat) :
    Performs (deleteUnpinnedChunk subquery) cache
      ((cache.deleteUnpinnedChunk (subquery cache.tables)).1,
        (cache.deleteUnpinnedChunk (subquery cache.tables)).2.1)
      (cache.deleteUnpinnedChunk (subquery cache.tables)).2.2 := by
  unfold Performs deleteUnpinnedChunk
  refine Returns.bind (returns_query _ _ _) ?_
  refine Returns.bind (returns_statement _ _ _) ?_
  refine Returns.bind (returns_remember _ _ _) ?_
  exact returns_pure _ _ _

/-! ### The pinned batch -/

theorem returns_batchPhysicalGrowthConn (rows : List WarmRow)
    (current : TileKey → Option Int) (growth : Int) :
    Returns (batchPhysicalGrowthConn rows current growth) tables counters
      (TileCache.batchPhysicalGrowth tables rows current growth) tables
      counters := by
  induction rows generalizing current growth with
  | nil => exact returns_pure _ _ _
  | cons row rows induction =>
      unfold batchPhysicalGrowthConn TileCache.batchPhysicalGrowth
      cases current row.key with
      | none =>
          exact Returns.bind (returns_query _ _ _) (induction _ _)
      | some bytes => exact Returns.bind (returns_pure _ _ _) (induction _ _)

theorem returns_insertMember (regionId : Option String) (key : TileKey) :
    Returns (insertMember regionId key) tables counters ()
      (tables.joinOption regionId key) counters := by
  cases regionId with
  | none => exact returns_pure _ _ _
  | some id => exact returns_execute _ _ _

/-- The locals of the loop beside the tables. -/
def localsOf (progress : TileCache.PutProgress) : PutLocals where
  added := progress.added
  reportedAdded := progress.reportedAdded
  pinnedAdded := progress.pinnedAdded
  categoryAdded := progress.categoryAdded
  stored := progress.stored
  capped := progress.capped

theorem returns_putRows (budget cap pinnedBase categoryBase : Int)
    (regionId : Option String) (now : Int) (rows : List WarmRow)
    (progress : TileCache.PutProgress) :
    let final := TileCache.putRows budget cap pinnedBase categoryBase regionId
      now rows progress
    Returns (putRows budget cap pinnedBase categoryBase regionId now rows
      (localsOf progress)) progress.tables counters (localsOf final)
      final.tables counters := by
  induction rows generalizing progress with
  | nil => exact returns_pure _ _ _
  | cons row rows induction =>
      unfold putRows TileCache.putRows
      refine Returns.bind (returns_query _ _ _) ?_
      refine Returns.bind (returns_query _ _ _) ?_
      cases exceeds : progress.exceeds budget cap pinnedBase categoryBase
          regionId row with
      | true =>
          have stops : (localsOf progress).exceeds budget cap pinnedBase
            categoryBase (progress.pinDelta row)
            (progress.categoryDelta regionId row) = true := exceeds
          refine (congrArg (fun script => Returns script _ _ _ _ _)
            (if_pos stops)).mpr ?_
          exact returns_pure _ _ _
      | false =>
          have goes : ¬ (localsOf progress).exceeds budget cap pinnedBase
            categoryBase (progress.pinDelta row)
            (progress.categoryDelta regionId row) = true := by
              rw [Bool.not_eq_true]
              exact exceeds
          refine (congrArg (fun script => Returns script _ _ _ _ _)
            (if_neg goes)).mpr ?_
          refine Returns.bind (returns_execute _ _ _) ?_
          refine Returns.bind (returns_insertMember _ _) ?_
          have rest := induction (progress.insertRow regionId now row)
          rw [tables_insertRow] at rest
          exact rest

theorem returns_putBatch (budget cap base pinnedBase categoryBase : Int)
    (regionId : Option String) (now : Int) (rows : List WarmRow) :
    let progress := TileCache.putRows budget cap pinnedBase categoryBase
      regionId now rows ⟨tables, 0, 0, 0, 0, 0, false⟩
    let evicted :=
      if base + progress.added > cap then
        TileCache.evictUnpinnedWithin progress.tables (base + progress.added)
          (evictionTarget cap)
      else
        (0, progress.tables)
    Returns (putBatch budget cap base pinnedBase categoryBase regionId now
      rows) tables counters (localsOf progress, evicted.1) evicted.2
      counters := by
  dsimp only
  unfold putBatch
  refine Returns.bind (returns_putRows budget cap pinnedBase categoryBase
    regionId now rows ⟨tables, 0, 0, 0, 0, 0, false⟩) ?_
  generalize TileCache.putRows budget cap pinnedBase categoryBase regionId now
    rows _ = progress
  by_cases exceeds : base + progress.added > cap
  · have same : base + (localsOf progress).added > cap := exceeds
    simp only [if_pos same, if_pos exceeds]
    exact Returns.bind (returns_evictUnpinnedWithin _ _) (returns_pure _ _ _)
  · have same : ¬ base + (localsOf progress).added > cap := exceeds
    simp only [if_neg same, if_neg exceeds]
    exact returns_pure _ _ _

theorem performs_putManyPinned (disk : DiskSpace) (rows : List WarmRow)
    (budget cap : Int) (regionId : Option String) (now : Int) :
    Performs (putManyPinned disk rows budget cap regionId now) cache
      (cache.putManyPinned disk rows budget cap regionId now).1
      (cache.putManyPinned disk rows budget cap regionId now).2 := by
  unfold Performs putManyPinned TileCache.putManyPinned
  refine Returns.bind (returns_batchPhysicalGrowthConn _ _ _) ?_
  refine Returns.bind (returns_hasDiskHeadroomConn disk _) ?_
  cases room : hasDiskHeadroom disk
      (TileCache.batchPhysicalGrowth cache.tables rows (fun _ => none) 0) with
  | false =>
      simp only [room, Bool.false_eq_true, if_true, if_false]
      exact returns_pure _ _ _
  | true =>
      simp only [room, Bool.true_eq_false, if_true, if_false]
      refine Returns.bind (returns_consult _ _ _) ?_
      refine Returns.bind (returns_consult _ _ _) ?_
      refine Returns.bind (returns_query _ _ _) ?_
      refine Returns.bind (Returns.attempt (Returns.transaction
        (returns_putBatch budget cap _ _ _ regionId now rows))) ?_
      exact Returns.bind (returns_remember _ _ _) (returns_pure _ _ _)

/-! ### Pins and regions -/

theorem performs_pinLocked (key : TileKey) (regionId : Option String)
    (wasPinned : Bool) (tileBytes : Int) :
    Performs (pinLocked key regionId wasPinned tileBytes) cache ()
      (cache.pinLocked key regionId wasPinned tileBytes) := by
  unfold Performs pinLocked
  refine Returns.bind (Returns.transaction (Returns.bind
    (returns_execute _ _ _) (returns_insertMember regionId key))) ?_
  cases regionId <;> exact returns_remember _ _ _

theorem performs_pinIfFreshCapped (key : TileKey)
    (now freshSecs negativeTtlSecs : Int) (budgets : PinBudgets)
    (regionId : Option String) :
    Performs (pinIfFreshCapped key now freshSecs negativeTtlSecs budgets
        regionId) cache
      (cache.pinIfFreshCapped key now freshSecs negativeTtlSecs budgets
        regionId).1
      (cache.pinIfFreshCapped key now freshSecs negativeTtlSecs budgets
        regionId).2 := by
  unfold Performs pinIfFreshCapped TileCache.pinIfFreshCapped
  refine Returns.bind (returns_query _ _ _) ?_
  cases cache.tables.row key with
  | none => exact returns_pure _ _ _
  | some row =>
      dsimp only
      split
      · exact returns_pure _ _ _
      · refine Returns.bind (returns_query _ _ _) ?_
        refine Returns.bind (returns_query _ _ _) ?_
        refine Returns.bind (returns_consult _ _ _) ?_
        by_cases full : cache.tables.keyInCategory key regionId = false ∧
            row.bytes > 0 ∧ cache.tables.categoryBytes regionId + row.bytes >
              budgets.categoryBytes
        · simp only [if_pos full]
          exact returns_pure _ _ _
        · simp only [if_neg full]
          by_cases exceeds : row.pinned = false ∧ row.bytes > 0 ∧
              cache.pinnedBytes + row.bytes > budgets.physicalBytes
          · have same : row.pinned = false ∧ row.bytes > 0 ∧
                cache.counters.pinnedBytes + row.bytes >
                  budgets.physicalBytes := exceeds
            simp only [if_pos same, if_pos exceeds]
            exact returns_pure _ _ _
          · have same : ¬ (row.pinned = false ∧ row.bytes > 0 ∧
                cache.counters.pinnedBytes + row.bytes >
                  budgets.physicalBytes) := exceeds
            simp only [if_neg same, if_neg exceeds]
            exact Returns.bind (performs_pinLocked key regionId _ _)
              (returns_pure _ _ _)

theorem performs_pinForRegion (key : TileKey) (budget : Int)
    (regionId : Option String) :
    Performs (pinForRegion key budget regionId) cache
      (cache.pinForRegion key budget regionId).1
      (cache.pinForRegion key budget regionId).2 := by
  unfold Performs pinForRegion TileCache.pinForRegion
  refine Returns.bind (returns_query _ _ _) ?_
  cases cache.tables.row key with
  | none => exact returns_pure _ _ _
  | some row =>
      refine Returns.bind (returns_query _ _ _) ?_
      refine Returns.bind (returns_query _ _ _) ?_
      dsimp only
      split
      · exact returns_pure _ _ _
      · exact Returns.bind (performs_pinLocked key regionId _ _)
          (returns_pure _ _ _)

theorem performs_dropped (select : String → Bool) :
    Performs (do
        transaction (fun _ => true) (dropStatements select)
        refreshPinned) cache ()
      (let tables := (cache.tables.dropRegions select).demoteUnreferenced
      { cache with
        tables := tables
        pinnedBytes := tables.pinnedSum
        regionsDirty := true }) := by
  unfold Performs
  refine Returns.bind (Returns.transaction (Returns.bind
    (returns_execute _ _ _) (returns_execute _ _ _))) ?_
  exact Returns.bind (returns_query _ _ _) (returns_remember _ _ _)

theorem returns_replaceRegion (staging target : String) :
    Returns (replaceRegion staging target) tables counters ()
      (TileCache.replaceRegion tables staging target) counters := by
  refine Returns.bind (returns_execute _ _ _) ?_
  refine Returns.bind (returns_execute _ _ _) ?_
  refine Returns.bind (returns_execute _ _ _) ?_
  exact returns_execute _ _ _

theorem returns_replaceRegions (replacements : List (String × String)) :
    Returns (replaceRegions replacements) tables counters ()
      (TileCache.replaceRegions replacements tables) counters := by
  induction replacements generalizing tables with
  | nil => exact returns_pure _ _ _
  | cons replacement rest induction =>
      obtain ⟨staging, target⟩ := replacement
      exact Returns.bind (returns_replaceRegion staging target) induction

theorem performs_promoteStagedRegions
    (replacements : List (String × String))
    (realBudget positionBudget cap : Int) :
    Performs (promoteStagedRegions replacements realBudget positionBudget
        cap) cache
      (cache.promoteStagedRegions replacements realBudget positionBudget
        cap).1
      (cache.promoteStagedRegions replacements realBudget positionBudget
        cap).2 := by
  unfold Performs promoteStagedRegions TileCache.promoteStagedRegions
  refine Returns.bind (Returns.transaction (Returns.bind
    (returns_replaceRegions replacements) (Returns.bind
      (returns_query _ _ _) (Returns.bind (returns_query _ _ _)
        (Returns.bind (returns_query _ _ _) (returns_pure _ _ _)))))) ?_
  dsimp only
  generalize TileCache.replaceRegions replacements cache.tables = tables
  by_cases exceeds : tables.pinnedSum > cap ∨
      tables.categoryBytes (some basemapAssetsRegionId) > realBudget ∨
      tables.categoryBytes (some positionWarmRegionId) > positionBudget
  · simp only [if_pos exceeds, decide_eq_true exceeds, Bool.not_true, id_eq,
      Bool.false_eq_true, if_false]
    exact returns_pure _ _ _
  · simp only [if_neg exceeds, decide_eq_false exceeds, Bool.not_false, id_eq,
      if_true]
    exact Returns.bind (Returns.bind (returns_query _ _ _)
      (returns_remember _ _ _)) (returns_pure _ _ _)

theorem performs_realRegionPinnedBytes (positionId : String) :
    Performs (realRegionPinnedBytes positionId) cache
      (cache.realRegionPinnedBytes positionId).1
      (cache.realRegionPinnedBytes positionId).2 := by
  unfold Performs realRegionPinnedBytes TileCache.realRegionPinnedBytes
  refine Returns.bind (returns_consult _ _ _) ?_
  by_cases clean : cache.regionsDirty = false
  · have same : cache.counters.regionsDirty = false := clean
    rw [if_pos same, if_pos clean]
    exact returns_consult _ _ _
  · have same : ¬ cache.counters.regionsDirty = false := clean
    rw [if_neg same, if_neg clean]
    refine Returns.bind (returns_query _ _ _) ?_
    exact Returns.bind (returns_remember _ _ _) (returns_pure _ _ _)

theorem performs_discarded {α : Type} {script : CacheScript α} {value : α}
    {after : TileCache} (performs : Performs script cache value after) :
    Performs (do
        let _ ← script
        pure ()) cache () after :=
  Returns.bind performs (returns_pure _ _ _)

end Performs

end Statements

/-- Without a failing statement the script of a call does what the call does
in one step. -/
theorem performs_apply (op : CacheOp) (cache : TileCache) :
    Statements.Performs op.statements cache () (op.apply cache) := by
  open Statements in
  cases op with
  | put disk key tile pinned now =>
      exact performs_discarded (performs_put disk key tile pinned now)
  | touch key now => exact performs_touch key now
  | putManyPinned disk rows budget cap regionId now =>
      exact performs_discarded
        (performs_putManyPinned disk rows budget cap regionId now)
  | pinIfFreshCapped key now freshSecs negativeTtlSecs budgets regionId =>
      exact performs_discarded (performs_pinIfFreshCapped key now freshSecs
        negativeTtlSecs budgets regionId)
  | pinForRegion key budget regionId =>
      exact performs_discarded (performs_pinForRegion key budget regionId)
  | deleteRegion regionId =>
      exact performs_dropped fun id => id == regionId
  | promoteStagedRegions replacements realBudget positionBudget cap =>
      exact performs_discarded (performs_promoteStagedRegions replacements
        realBudget positionBudget cap)
  | evictTo capBytes => exact performs_evictTo capBytes
  | cleanupAbandonedStaging =>
      exact performs_dropped fun id => startsWith id stagingRegionPrefix
  | sweepChunk cutoff =>
      exact performs_discarded (performs_deleteUnpinnedChunk _)
  | clearChunk => exact performs_discarded (performs_deleteUnpinnedChunk _)
  | realRegionPinnedBytes =>
      exact performs_discarded (performs_realRegionPinnedBytes _)

/-! ## Failures leave nothing behind -/

namespace Statements

theorem steady_hasDiskHeadroomConn (disk : DiskSpace) (additional : Int) :
    Steady (hasDiskHeadroomConn disk additional) := by
  unfold hasDiskHeadroomConn
  split
  · exact steady_pure true
  · refine Steady.bind (Steady.attempt (Steady.bind (steady_query _) ?_)) ?_
    · exact fun _ => steady_query _
    · exact fun _ => steady_pure _

theorem atomic_put (disk : DiskSpace) (key : TileKey) (tile : CachedTile)
    (pinned : Bool) (now : Int) :
    Atomic (put disk key tile pinned now) := by
  unfold put
  refine Atomic.of_steady (steady_query _) fun previous => ?_
  refine Atomic.of_steady (steady_hasDiskHeadroomConn _ _) fun room => ?_
  split
  · refine Atomic.attempt (atomic_statement _) (fun _ => ?_) ?_
    · exact Certain.bind (certain_remember _) fun _ => certain_pure _
    · intro reported
      cases reported with
      | diskFull => exact (steady_pure _).atomic
      | invalidQuery => exact (steady_fail _).atomic
      | other => exact (steady_fail _).atomic
  · exact (steady_pure _).atomic

theorem keepsMemory_evictUnpinnedWithin (total target : Int) :
    KeepsMemory (evictUnpinnedWithin total target) := by
  unfold evictUnpinnedWithin
  split
  · exact (steady_pure _).keepsMemory
  · exact keepsMemory_statement _

theorem atomic_evictTo (capBytes : Int) : Atomic (evictTo capBytes) := by
  unfold evictTo
  refine Atomic.of_steady (steady_consult _) fun current => ?_
  split
  · exact (steady_pure _).atomic
  · exact Atomic.bind_certain
      (atomic_transaction (keepsMemory_evictUnpinnedWithin _ _))
      fun _ => certain_remember _

theorem atomic_deleteUnpinnedChunk (subquery : Tables → List Nat) :
    Atomic (deleteUnpinnedChunk subquery) := by
  unfold deleteUnpinnedChunk
  refine Atomic.of_steady (steady_query _) fun _ => ?_
  refine Atomic.bind_certain (atomic_statement _) fun _ => ?_
  exact Certain.bind (certain_remember _) fun _ => certain_pure _

theorem steady_batchPhysicalGrowthConn (rows : List WarmRow)
    (current : TileKey → Option Int) (growth : Int) :
    Steady (batchPhysicalGrowthConn rows current growth) := by
  induction rows generalizing current growth with
  | nil => exact steady_pure _
  | cons row rows induction =>
      unfold batchPhysicalGrowthConn
      cases current row.key with
      | none => exact Steady.bind (steady_query _) fun _ => induction _ _
      | some bytes => exact Steady.bind (steady_pure _) fun _ => induction _ _

theorem keepsMemory_insertMember (regionId : Option String) (key : TileKey) :
    KeepsMemory (insertMember regionId key) := by
  cases regionId with
  | none => exact (steady_pure _).keepsMemory
  | some id => exact keepsMemory_statement _

theorem keepsMemory_putRows (budget cap pinnedBase categoryBase : Int)
    (regionId : Option String) (now : Int) (rows : List WarmRow)
    (locals : PutLocals) :
    KeepsMemory (putRows budget cap pinnedBase categoryBase regionId now rows
      locals) := by
  induction rows generalizing locals with
  | nil => exact (steady_pure _).keepsMemory
  | cons row rows induction =>
      unfold putRows
      refine KeepsMemory.bind (steady_query _).keepsMemory fun _ => ?_
      refine KeepsMemory.bind (steady_query _).keepsMemory fun _ => ?_
      refine KeepsMemory.ite (steady_pure _).keepsMemory ?_
      refine KeepsMemory.bind (keepsMemory_statement _) fun _ => ?_
      exact KeepsMemory.bind (keepsMemory_insertMember _ _)
        fun _ => induction _

theorem keepsMemory_putBatch (budget cap base pinnedBase categoryBase : Int)
    (regionId : Option String) (now : Int) (rows : List WarmRow) :
    KeepsMemory (putBatch budget cap base pinnedBase categoryBase regionId now
      rows) := by
  unfold putBatch
  refine KeepsMemory.bind (keepsMemory_putRows _ _ _ _ _ _ _ _) fun _ => ?_
  dsimp only
  split
  · exact KeepsMemory.bind (keepsMemory_evictUnpinnedWithin _ _)
      fun _ => (steady_pure _).keepsMemory
  · exact (steady_pure _).keepsMemory

theorem atomic_putManyPinned (disk : DiskSpace) (rows : List WarmRow)
    (budget cap : Int) (regionId : Option String) (now : Int) :
    Atomic (putManyPinned disk rows budget cap regionId now) := by
  unfold putManyPinned
  refine Atomic.of_steady (steady_batchPhysicalGrowthConn _ _ _) fun _ => ?_
  refine Atomic.of_steady (steady_hasDiskHeadroomConn _ _) fun room => ?_
  split
  · refine Atomic.of_steady (steady_consult _) fun _ => ?_
    refine Atomic.of_steady (steady_consult _) fun _ => ?_
    refine Atomic.of_steady (steady_query _) fun _ => ?_
    refine Atomic.attempt
      (atomic_transaction (keepsMemory_putBatch _ _ _ _ _ _ _ _))
      (fun _ => ?_) ?_
    · exact Certain.bind (certain_remember _) fun _ => certain_pure _
    · intro reported
      cases reported with
      | diskFull => exact (steady_pure _).atomic
      | invalidQuery => exact (steady_fail _).atomic
      | other => exact (steady_fail _).atomic
  · exact (steady_pure _).atomic

theorem atomic_pinLocked (key : TileKey) (regionId : Option String)
    (wasPinned : Bool) (tileBytes : Int) :
    Atomic (pinLocked key regionId wasPinned tileBytes) := by
  unfold pinLocked
  refine Atomic.bind_certain (atomic_transaction ?_)
    fun _ => certain_remember _
  exact KeepsMemory.bind (keepsMemory_statement _)
    fun _ => keepsMemory_insertMember regionId key

theorem atomic_pinIfFreshCapped (key : TileKey)
    (now freshSecs negativeTtlSecs : Int) (budgets : PinBudgets)
    (regionId : Option String) :
    Atomic (pinIfFreshCapped key now freshSecs negativeTtlSecs budgets
      regionId) := by
  unfold pinIfFreshCapped
  refine Atomic.of_steady (steady_query _) fun found => ?_
  cases found with
  | none => exact (steady_pure _).atomic
  | some row =>
      dsimp only
      split
      · exact (steady_pure _).atomic
      · refine Atomic.of_steady (steady_query _) fun _ => ?_
        refine Atomic.of_steady (steady_query _) fun _ => ?_
        refine Atomic.of_steady (steady_consult _) fun _ => ?_
        split
        · exact (steady_pure _).atomic
        · split
          · exact (steady_pure _).atomic
          · exact Atomic.bind_certain (atomic_pinLocked _ _ _ _)
              fun _ => certain_pure _

theorem atomic_pinForRegion (key : TileKey) (budget : Int)
    (regionId : Option String) :
    Atomic (pinForRegion key budget regionId) := by
  unfold pinForRegion
  refine Atomic.of_steady (steady_query _) fun found => ?_
  cases found with
  | none => exact (steady_pure _).atomic
  | some row =>
      refine Atomic.of_steady (steady_query _) fun _ => ?_
      refine Atomic.of_steady (steady_query _) fun _ => ?_
      split
      · exact (steady_pure _).atomic
      · exact Atomic.bind_certain (atomic_pinLocked _ _ _ _)
          fun _ => certain_pure _

theorem atomic_realRegionPinnedBytes (positionId : String) :
    Atomic (realRegionPinnedBytes positionId) := by
  unfold realRegionPinnedBytes
  refine Atomic.of_steady (steady_consult _) fun dirty => ?_
  split
  · exact (steady_consult _).atomic
  · refine Atomic.of_steady (steady_query _) fun _ => ?_
    exact (Certain.bind (certain_remember _) fun _ => certain_pure _).atomic

/-! ### The sum after a commit -/

/-- The refresh does not fail where its statement does not. -/
theorem refreshPinned_succeeds {faults : FaultPlan SqlError}
    {session : Session Tables Counters}
    (passes : faults session.executed = none) (failure : SqlError) :
    (refreshPinned faults session).1 ≠ .error failure := by
  intro failed
  unfold refreshPinned at failed
  rw [bind_apply] at failed
  simp only [query, statement, passes] at failed
  cases failed

theorem keepsMemory_dropStatements (select : String → Bool) :
    KeepsMemory (dropStatements select) :=
  KeepsMemory.bind (keepsMemory_statement _) fun _ => keepsMemory_statement _

theorem counts_dropStatements (select : String → Bool) :
    Counts 2 (dropStatements select) :=
  Counts.bind (counts_statement _) fun _ => counts_statement _

theorem dropped_unchanged (select : String → Bool) {cache : TileCache}
    {faults : FaultPlan SqlError} (passes : faults 4 = none)
    {failure : SqlError}
    (failed : ((do
      transaction (fun _ => true) (dropStatements select)
      refreshPinned : CacheScript Unit) faults cache.session).1 =
        .error failure) :
    Unchanged cache.session ((do
      transaction (fun _ => true) (dropStatements select)
      refreshPinned : CacheScript Unit) faults cache.session).2 := by
  refine Atomic.bind_at
    (atomic_transaction (keepsMemory_dropStatements select)) ?_ failed
  intro value after ran
  apply refreshPinned_succeeds
  rw [(counts_dropStatements select).kept ran rfl]
  exact passes

theorem keepsMemory_replaceRegion (staging target : String) :
    KeepsMemory (replaceRegion staging target) :=
  KeepsMemory.bind (keepsMemory_statement _) fun _ =>
    KeepsMemory.bind (keepsMemory_statement _) fun _ =>
      KeepsMemory.bind (keepsMemory_statement _) fun _ =>
        keepsMemory_statement _

theorem counts_replaceRegion (staging target : String) :
    Counts 4 (replaceRegion staging target) :=
  Counts.bind (counts_statement _) fun _ =>
    Counts.bind (counts_statement _) fun _ =>
      Counts.bind (counts_statement _) fun _ => counts_statement _

theorem keepsMemory_replaceRegions (replacements : List (String × String)) :
    KeepsMemory (replaceRegions replacements) := by
  induction replacements with
  | nil => exact (steady_pure _).keepsMemory
  | cons replacement rest induction =>
      exact KeepsMemory.bind (keepsMemory_replaceRegion _ _)
        fun _ => induction

theorem counts_replaceRegions (replacements : List (String × String)) :
    Counts (4 * replacements.length) (replaceRegions replacements) := by
  induction replacements with
  | nil => exact counts_pure _
  | cons replacement rest induction =>
      have counts := Counts.bind
        (counts_replaceRegion replacement.1 replacement.2) fun _ => induction
      rw [List.length_cons, Nat.mul_succ, Nat.add_comm]
      exact counts

theorem counts_promotion (replacements : List (String × String))
    (realBudget positionBudget cap : Int) :
    Counts (4 * replacements.length + 3)
      (promotion replacements realBudget positionBudget cap) := by
  refine Counts.bind (counts_replaceRegions replacements) fun _ => ?_
  exact Counts.bind (counts_statement _) fun _ =>
    Counts.bind (counts_statement _) fun _ =>
      Counts.bind (counts_statement _) fun _ => counts_pure _

theorem keepsMemory_promotion (replacements : List (String × String))
    (realBudget positionBudget cap : Int) :
    KeepsMemory (promotion replacements realBudget positionBudget cap) := by
  refine KeepsMemory.bind (keepsMemory_replaceRegions replacements)
    fun _ => Steady.keepsMemory ?_
  exact Steady.bind (steady_query _) fun _ =>
    Steady.bind (steady_query _) fun _ =>
      Steady.bind (steady_query _) fun _ => steady_pure _

theorem promoted_unchanged (replacements : List (String × String))
    (realBudget positionBudget cap : Int) {cache : TileCache}
    {faults : FaultPlan SqlError}
    (passes : faults (4 * replacements.length + 5) = none)
    {failure : SqlError}
    (failed : (promoteStagedRegions replacements realBudget positionBudget
      cap faults cache.session).1 = .error failure) :
    Unchanged cache.session (promoteStagedRegions replacements realBudget
      positionBudget cap faults cache.session).2 := by
  refine Atomic.bind_at (atomic_transaction
    (keepsMemory_promotion replacements realBudget positionBudget cap))
    ?_ failed
  intro promoted after ran reported
  cases promoted with
  | false => exact certain_pure _ faults after reported
  | true =>
      have executed := (counts_promotion replacements realBudget
        positionBudget cap).kept ran rfl
      have refreshed : (refreshPinned faults after).1 ≠ .error reported := by
        apply refreshPinned_succeeds
        rw [executed]
        simpa [TileCache.session] using passes
      intro ended
      rw [if_pos rfl, bind_apply] at ended
      split at ended
      · cases ended
      · next other ends =>
        rw [ends] at refreshed
        cases ended
        exact refreshed rfl

end Statements

/-- The statement which three methods execute after their commit, by the
number of the statements before it. -/
def CacheOp.refreshAt : CacheOp → Option Nat
  | .deleteRegion _ | .cleanupAbandonedStaging => some 4
  | .promoteStagedRegions replacements _ _ _ =>
      some (4 * replacements.length + 5)
  | _ => none

/-- Nothing of a cache is changed. -/
theorem TileCache.ofSession_unchanged {cache : TileCache}
    {after : Session Tables Counters} (same : Unchanged cache.session after) :
    TileCache.ofSession after = cache := by
  unfold TileCache.ofSession
  rw [same.data, same.memory]
  rfl

/-- A call which reports an error has changed nothing, unless it has failed
after its commit. -/
theorem CacheOp.unchanged_of_failed (op : CacheOp) {cache : TileCache}
    {faults : FaultPlan SqlError}
    (passes : ∀ position, op.refreshAt = some position →
      faults position = none) {failure : SqlError}
    (failed : (op.statements faults cache.session).1 = .error failure) :
    Unchanged cache.session (op.statements faults cache.session).2 := by
  open Statements in
  have discarded : ∀ {α : Type} {script : CacheScript α}, Atomic script →
      Atomic (do
        let _ ← script
        pure () : CacheScript Unit) :=
    fun acts => Atomic.bind_certain acts fun _ => certain_pure _
  cases op with
  | put disk key tile pinned now =>
      exact discarded (atomic_put disk key tile pinned now) _ _ _ failed
  | touch key now => exact atomic_statement _ _ _ _ failed
  | putManyPinned disk rows budget cap regionId now =>
      exact discarded (atomic_putManyPinned disk rows budget cap regionId now)
        _ _ _ failed
  | pinIfFreshCapped key now freshSecs negativeTtlSecs budgets regionId =>
      exact discarded (atomic_pinIfFreshCapped key now freshSecs
        negativeTtlSecs budgets regionId) _ _ _ failed
  | pinForRegion key budget regionId =>
      exact discarded (atomic_pinForRegion key budget regionId) _ _ _ failed
  | deleteRegion regionId => exact dropped_unchanged _ (passes _ rfl) failed
  | promoteStagedRegions replacements realBudget positionBudget cap =>
      have refreshes := passes _ rfl
      simp only [CacheOp.statements, bind_apply] at failed ⊢
      have same := @promoted_unchanged replacements realBudget positionBudget
        cap cache faults refreshes failure
      cases ran : Statements.promoteStagedRegions replacements realBudget
          positionBudget cap faults cache.session with
      | mk result after =>
          rw [ran] at failed same
          cases result with
          | ok promoted => cases failed
          | error reported =>
              cases failed
              exact same rfl
  | evictTo capBytes => exact atomic_evictTo capBytes _ _ _ failed
  | cleanupAbandonedStaging =>
      exact dropped_unchanged _ (passes _ rfl) failed
  | sweepChunk cutoff =>
      exact discarded (atomic_deleteUnpinnedChunk _) _ _ _ failed
  | clearChunk =>
      exact discarded (atomic_deleteUnpinnedChunk _) _ _ _ failed
  | realRegionPinnedBytes =>
      exact discarded (atomic_realRegionPinnedBytes _) _ _ _ failed

/-! ## The loops over chunks -/

/-- What a method may have left of its work when it reports an error: nothing,
or the chunks which it has completed. -/
def Method.Leaves (before after : TileCache) : Method → Prop
  | .call _ => after = before
  | .sweepAgedUnpinned ttlSecs now => ∃ chunks,
      after = (fun cache => (cache.sweepChunk (now - ttlSecs)).2.2)^[chunks]
        before
  | .clearUnpinned _ => ∃ chunks,
      after = (fun cache => cache.clearChunk.2.2)^[chunks] before

def Method.refreshAt : Method → Option Nat
  | .call op => op.refreshAt
  | _ => none

namespace Statements

/-- A chunk is completed or leaves nothing behind. -/
theorem deleteUnpinnedChunk_cases (subquery : Tables → List Nat)
    (faults : FaultPlan SqlError) (session : Session Tables Counters) :
    let done := deleteUnpinnedChunk subquery faults session
    let cache := TileCache.ofSession session
    ((∃ failure, done.1 = .error failure) ∧
      TileCache.ofSession done.2 = cache) ∨
    ((∃ freed, done.1 = .ok freed) ∧ TileCache.ofSession done.2 =
      (cache.deleteUnpinnedChunk (subquery cache.tables)).2.2) := by
  simp only [deleteUnpinnedChunk, bind_apply, query, statement]
  cases faults session.executed with
  | some failure => exact .inl ⟨⟨failure, rfl⟩, rfl⟩
  | none =>
      dsimp only
      cases faults (session.executed + 1) with
      | some failure => exact .inl ⟨⟨failure, rfl⟩, rfl⟩
      | none => exact .inr ⟨⟨_, rfl⟩, rfl⟩

theorem deleteUnpinnedChunk_removes (subquery : Tables → List Nat)
    (faults : FaultPlan SqlError) (session : Session Tables Counters)
    (done : Int × Nat)
    (ok : (deleteUnpinnedChunk subquery faults session).1 = .ok done) :
    (deleteUnpinnedChunk subquery faults session).2.data.tiles.rows.length +
      done.2 = session.data.tiles.rows.length := by
  simp only [deleteUnpinnedChunk, bind_apply, query, statement] at ok ⊢
  cases first : faults session.executed with
  | some failure =>
      rw [first] at ok
      cases ok
  | none =>
      rw [first] at ok
      dsimp only at ok ⊢
      cases second : faults (session.executed + 1) with
      | some failure =>
          rw [second] at ok
          cases ok
      | none =>
          rw [second] at ok
          cases ok
          have parts := List.length_eq_length_filter_add
            (fun row : TileRow => !decide (row.rowid ∈ subquery session.data))
            (l := session.data.tiles.rows)
          simp only [Bool.not_not] at parts
          exact parts.symm

/-- A loop whose rounds outnumber the rows ends before they are used up: a
full chunk removes as many rows as it counts. -/
theorem deleteUnpinnedChunks_succ (subquery : Tables → List Nat)
    (faults : FaultPlan SqlError) {rows : Nat} (freed : Int × Nat)
    {session : Session Tables Counters}
    (enough : session.data.tiles.rows.length < rows) :
    deleteUnpinnedChunks subquery (rows + 1) freed faults session =
      deleteUnpinnedChunks subquery rows freed faults session := by
  induction rows generalizing freed session with
  | zero => omega
  | succ rows induction =>
      have removes := deleteUnpinnedChunk_removes subquery faults session
      unfold deleteUnpinnedChunks
      rw [bind_apply, bind_apply]
      cases ran : deleteUnpinnedChunk subquery faults session with
      | mk result after =>
          rw [ran] at removes
          cases result with
          | error failure => rfl
          | ok done =>
              have fewer := removes done rfl
              dsimp only at fewer ⊢
              split
              · rfl
              · next full =>
                apply induction
                unfold deleteChunk at full
                omega

/-- The loop has completed some chunks. -/
theorem deleteUnpinnedChunks_iterate (subquery : Tables → List Nat)
    (faults : FaultPlan SqlError) (rows : Nat) (freed : Int × Nat)
    (session : Session Tables Counters) :
    ∃ chunks, TileCache.ofSession
      (deleteUnpinnedChunks subquery rows freed faults session).2 =
        (fun cache => (cache.deleteUnpinnedChunk
          (subquery cache.tables)).2.2)^[chunks]
          (TileCache.ofSession session) := by
  induction rows generalizing freed session with
  | zero => exact ⟨0, rfl⟩
  | succ rows induction =>
      have chunk := deleteUnpinnedChunk_cases subquery faults session
      unfold deleteUnpinnedChunks
      rw [bind_apply]
      cases ran : deleteUnpinnedChunk subquery faults session with
      | mk result after =>
          rw [ran] at chunk
          rcases chunk with ⟨⟨failure, failed⟩, same⟩ | ⟨⟨done, ok⟩, same⟩
          · cases failed
            exact ⟨0, same⟩
          · cases ok
            dsimp only
            split
            · exact ⟨1, same⟩
            · obtain ⟨chunks, later⟩ := induction
                (freed.1 + done.1, freed.2 + done.2) after
              refine ⟨chunks + 1, ?_⟩
              rw [later, Function.iterate_succ_apply, ← same]

theorem steady_reclaimSteps (autoVacuum : Nat) (steps : List (Nat × Nat)) :
    Steady (reclaimSteps autoVacuum steps) := by
  induction steps with
  | nil =>
      refine Steady.bind (steady_query _) fun mode => ?_
      split
      · exact steady_fail _
      · exact Steady.bind (steady_query _) fun _ => steady_pure _
  | cons step steps induction =>
      refine Steady.bind (steady_query _) fun mode => ?_
      split
      · exact steady_fail _
      · refine Steady.bind (steady_query _) fun found => ?_
        split
        · exact steady_pure _
        · refine Steady.bind (steady_query _) fun _ => ?_
          refine Steady.bind (steady_query _) fun _ => ?_
          refine Steady.bind (steady_query _) fun left => ?_
          split
          · exact steady_pure _
          · split
            · exact steady_fail _
            · exact induction

theorem steady_reclaimFreePages (pages : FreePages) :
    Steady (reclaimFreePages pages) := by
  refine Steady.bind (steady_query _) fun mode => ?_
  split
  · exact steady_pure _
  · exact Steady.bind (steady_query _) fun _ => steady_reclaimSteps _ _

/-- What follows the loop changes nothing. -/
theorem clearUnpinned_iterate (rows : Nat) (pages : FreePages)
    (faults : FaultPlan SqlError) (cache : TileCache) :
    ∃ chunks, TileCache.ofSession
      (clearUnpinned rows pages faults cache.session).2 =
        (fun cache => cache.clearChunk.2.2)^[chunks] cache := by
  obtain ⟨chunks, completed⟩ := deleteUnpinnedChunks_iterate clearRowids
    faults rows (0, 0) cache.session
  refine ⟨chunks, Eq.trans ?_ completed⟩
  unfold clearUnpinned
  rw [bind_apply]
  split
  · next freed after ran =>
    have rest : Steady (do
        reclaimFreePages pages
        pure freed : CacheScript (Int × Nat)) :=
      Steady.bind (steady_reclaimFreePages pages) fun _ => steady_pure _
    have same := rest faults after
    rw [ran]
    unfold TileCache.ofSession
    rw [same.data, same.memory]
  · next reported after ran => rw [ran]

theorem sweepAgedUnpinned_iterate (rows : Nat) (ttlSecs now : Int)
    (faults : FaultPlan SqlError) (cache : TileCache) :
    ∃ chunks, TileCache.ofSession
      (sweepAgedUnpinned rows ttlSecs now faults cache.session).2 =
        (fun cache => (cache.sweepChunk (now - ttlSecs)).2.2)^[chunks]
          cache := by
  unfold sweepAgedUnpinned
  split
  · exact ⟨0, rfl⟩
  · exact deleteUnpinnedChunks_iterate (sweepRowids (now - ttlSecs)) faults
      rows (0, 0) cache.session

end Statements

theorem exact_iterate {step : TileCache → TileCache}
    (keeps : ∀ cache, Exact cache → Exact (step cache)) {cache : TileCache}
    (exact : Exact cache) (count : Nat) : Exact (step^[count] cache) := by
  induction count generalizing cache with
  | zero => exact exact
  | succ count induction =>
      rw [Function.iterate_succ_apply]
      exact induction (keeps cache exact)

theorem Method.leaves_of_failed (method : Method) {cache : TileCache}
    {faults : FaultPlan SqlError}
    (passes : ∀ position, method.refreshAt = some position →
      faults position = none) {failure : SqlError}
    (failed : (method.run faults cache).1 = .error failure) :
    method.Leaves cache (TileCache.ofSession (method.run faults cache).2) := by
  have discarded : ∀ {α : Type} (script : CacheScript α),
      TileCache.ofSession ((do
        let _ ← script
        pure () : CacheScript Unit) faults cache.session).2 =
      TileCache.ofSession (script faults cache.session).2 := by
    intro α script
    rw [bind_apply]
    split
    · next value after ran =>
      rw [ran]
      rfl
    · next reported after ran => rw [ran]
  cases method with
  | call op =>
      exact TileCache.ofSession_unchanged (op.unchanged_of_failed passes failed)
  | sweepAgedUnpinned ttlSecs now =>
      obtain ⟨chunks, completed⟩ := Statements.sweepAgedUnpinned_iterate
        (cache.tables.tiles.rows.length + 1) ttlSecs now faults cache
      exact ⟨chunks, (discarded _).trans completed⟩
  | clearUnpinned pages =>
      obtain ⟨chunks, completed⟩ := Statements.clearUnpinned_iterate
        (cache.tables.tiles.rows.length + 1) pages faults cache
      exact ⟨chunks, (discarded _).trans completed⟩

theorem Method.Leaves.exact {method : Method} {before after : TileCache}
    (exact : Exact before) (leaves : method.Leaves before after) :
    Exact after := by
  cases method with
  | call op =>
      have same : after = before := leaves
      rw [same]
      exact exact
  | sweepAgedUnpinned ttlSecs now =>
      obtain ⟨chunks, rfl⟩ := leaves
      exact exact_iterate (fun _ before =>
        TileCache.exact_sweepChunk before (now - ttlSecs)) exact chunks
  | clearUnpinned pages =>
      obtain ⟨chunks, rfl⟩ := leaves
      exact exact_iterate (fun _ before => TileCache.exact_clearChunk before)
        exact chunks

/-! ## The learned styles -/

theorem keepsMemory_insertRecords (records : List LearnedRecord) :
    KeepsMemory (insertRecords records) := by
  induction records with
  | nil => exact (steady_pure _).keepsMemory
  | cons record rest induction =>
      exact KeepsMemory.bind (keepsMemory_statement _) fun _ => induction

theorem steady_retainedRecords (maxStateBytes : Nat)
    (sourceSignatures : List (String × String)) :
    Steady (retainedRecords maxStateBytes sourceSignatures) := by
  induction sourceSignatures with
  | nil => exact steady_pure _
  | cons signature rest induction =>
      refine Steady.bind (steady_query _) fun _ => ?_
      exact Steady.bind induction fun _ => steady_pure _

theorem LearnedMethod.atomic (method : LearnedMethod) :
    Atomic method.statements := by
  cases method with
  | storeLearnedStyle record => exact atomic_statement _
  | reconcileLearnedStyles sourceSignatures maxStateBytes =>
      apply atomic_transaction
      refine KeepsMemory.bind
        (steady_retainedRecords maxStateBytes sourceSignatures).keepsMemory
        fun _ => ?_
      exact KeepsMemory.bind (keepsMemory_statement _)
        fun _ => keepsMemory_insertRecords _
  | deleteLearnedStyle source => exact atomic_statement _

/-- When a method reports an error, the aggregates are still exact and the
tables are as they were, but for the chunks which a sweep or a clear has
completed.  Any statements may have failed, except the sum which three methods
read after their commit.  The methods of the learned styles change nothing
either.  Without a failing statement a method does what its call does in one
step. -/
theorem failed_method_leaves {cache : TileCache} (exact : Exact cache)
    (learned : LearnedTable) (faults : FaultPlan SqlError) :
    (∀ (method : Method) (failure : SqlError),
      (∀ position, method.refreshAt = some position →
        faults position = none) →
      (method.run faults cache).1 = .error failure →
      let after := TileCache.ofSession (method.run faults cache).2
      method.Leaves cache after ∧ Exact after) ∧
    (∀ (method : LearnedMethod) (failure : SqlError),
      let session := ⟨learned, cache.counters, 0⟩
      (method.statements faults session).1 = .error failure →
      Unchanged session (method.statements faults session).2) ∧
    (∀ op : CacheOp, let done := (Method.call op).run FaultPlan.none cache
      done.1 = .ok () ∧ TileCache.ofSession done.2 = op.apply cache) := by
  refine ⟨?_, ?_, ?_⟩
  · intro method failure passes failed
    have leaves := method.leaves_of_failed passes failed
    exact ⟨leaves, leaves.exact exact⟩
  · intro method failure session failed
    exact method.atomic faults session failure failed
  · intro op
    obtain ⟨executed, performed⟩ := performs_apply op cache 0
    have ran : (Method.call op).run FaultPlan.none cache =
        (.ok (), ⟨(op.apply cache).tables, (op.apply cache).counters,
          executed⟩) := performed
    rw [ran]
    exact ⟨rfl, rfl⟩

/-- An `INSERT` of a batch fails. -/
theorem failed_method_leaves_agedBatch :
    let method := Method.call
      (.putManyPinned ⟨none, 0⟩ agedBatch 90 60 (some "harbour") 9)
    let faults := FaultPlan.single 8 SqlError.other
    (method.run faults agedCache).1 = .error .other ∧
      TileCache.ofSession (method.run faults agedCache).2 = agedCache := by
  have exact : Exact agedCache :=
    exact_of_reachable ⟨_, agedCalls, ⟨false, Tables.empty, rfl⟩, rfl⟩
  have failed : ((Method.call
      (.putManyPinned ⟨none, 0⟩ agedBatch 90 60 (some "harbour") 9)).run
        (FaultPlan.single 8 SqlError.other) agedCache).1 =
          .error .other := by decide +kernel
  refine ⟨failed, ?_⟩
  exact ((failed_method_leaves exact KeyedTable.empty
    (FaultPlan.single 8 SqlError.other)).1 _ _ (fun _ none => by cases none)
      failed).1

/-- A clear whose checkpoint fails has deleted the rows, and a deletion of a
region whose last statement fails has been applied with the pinned bytes as
they were. -/
theorem failed_method_changes_sampleCache :
    (∃ method failure, Exact sampleCache ∧
      (Method.run method (FaultPlan.single 3 failure) sampleCache).1 =
        .error failure ∧
      (TileCache.ofSession (method.run (FaultPlan.single 3 failure)
        sampleCache).2).tables.tiles.rows.length <
          sampleCache.tables.tiles.rows.length) ∧
    (∃ method failure, Exact sampleCache ∧
      (Method.run method (FaultPlan.single 4 failure) sampleCache).1 =
        .error failure ∧
      ¬ Exact (TileCache.ofSession (method.run (FaultPlan.single 4 failure)
        sampleCache).2)) := by
  have exact : Exact sampleCache :=
    exact_of_reachable ⟨_, sampleCalls, ⟨false, Tables.empty, rfl⟩, rfl⟩
  constructor
  · exact ⟨.clearUnpinned ⟨2, []⟩, .other, exact, by decide +kernel,
      by decide +kernel⟩
  · refine ⟨.call (.deleteRegion "harbour"), .other, exact,
      by decide +kernel, ?_⟩
    intro still
    have pinned := still.pinned
    revert pinned
    decide +kernel

end ChartLocker.Cache
