import ChartLocker.Cache.Batch
import ChartLocker.Library.Script

/-!
# The statements of the methods

The methods of `TileCache` as scripts of the statements which they execute,
in their order and in their transactions.  A statement may fail; without a
failure a script does what the method of the model does in one step.
-/

namespace ChartLocker.Cache

open Library Library.Script

inductive SqlError where
  | diskFull
  | invalidQuery
  | other
deriving DecidableEq, Repr

/-- The fields of `Inner` beside the connection. -/
structure Counters where
  totalBytes : Int
  pinnedBytes : Int
  realRegionCache : Int
  regionsDirty : Bool

abbrev CacheScript (α : Type) : Type := Script SqlError Tables Counters α

namespace TileCache

def counters (cache : TileCache) : Counters where
  totalBytes := cache.totalBytes
  pinnedBytes := cache.pinnedBytes
  realRegionCache := cache.realRegionCache
  regionsDirty := cache.regionsDirty

/-- A cache whose method begins. -/
def session (cache : TileCache) : Session Tables Counters where
  data := cache.tables
  memory := cache.counters
  executed := 0

/-- The cache which a session leaves. -/
def ofSession (session : Session Tables Counters) : TileCache where
  tables := session.data
  totalBytes := session.memory.totalBytes
  pinnedBytes := session.memory.pinnedBytes
  realRegionCache := session.memory.realRegionCache
  regionsDirty := session.memory.regionsDirty

end TileCache

/-- The pages which a reclaim finds: the mode of the file, and the free pages
before and after each step. -/
structure FreePages where
  autoVacuum : Nat
  steps : List (Nat × Nat)

namespace Statements

/-- `freelist_count` and `page_size` may fail; the free space of the file
then counts as none. -/
def hasDiskHeadroomConn (disk : DiskSpace) (additionalBytes : Int) :
    CacheScript Bool :=
  if additionalBytes ≤ 0 then
    pure true
  else do
    let pages ← attempt (do
      let _ ← query fun _ : Tables => ()
      query fun _ : Tables => disk.reusable)
    let reusable := match pages with
      | .ok bytes => bytes
      | .error _ => 0
    pure (match disk.available with
      | some available => hasHeadroom available reusable additionalBytes.toNat
      | none => true)

def put (disk : DiskSpace) (key : TileKey) (tile : CachedTile)
    (pinned : Bool) (now : Int) : CacheScript PutOutcome := do
  let previous ← query fun tables : Tables => tables.row key
  let oldBytes := previous.elim 0 TileRow.bytes
  let wasPinned := previous.elim false TileRow.pinned
  let room ← hasDiskHeadroomConn disk (tile.bytes - oldBytes)
  if room then do
    let effectivePinned := pinned || wasPinned
    let result ← attempt (execute fun tables : Tables =>
      tables.replaceTile key tile now effectivePinned)
    match result with
    | .ok _ => do
        remember fun counters : Counters =>
          let total := counters.totalBytes + (tile.bytes - oldBytes)
          if effectivePinned then
            { counters with
              totalBytes := total
              pinnedBytes := counters.pinnedBytes +
                (tile.bytes - if wasPinned then oldBytes else 0)
              regionsDirty := true }
          else
            { counters with totalBytes := total }
        pure .stored
    | .error .diskFull => pure .degraded
    | .error reported => fail reported
  else
    pure .degraded

def touch (key : TileKey) (now : Int) : CacheScript Unit :=
  execute fun tables => tables.touchTile key now

/-- The window `DELETE` on an open transaction. -/
def evictUnpinnedWithin (currentTotal target : Int) : CacheScript Int :=
  if currentTotal ≤ target then
    pure 0
  else
    statement fun tables =>
      TileCache.evictUnpinnedWithin tables currentTotal target

def evictTo (capBytes : Int) : CacheScript Unit := do
  let current ← consult Counters.totalBytes
  if current ≤ capBytes then
    pure ()
  else do
    let freed ← transaction (fun _ => true)
      (evictUnpinnedWithin current (evictionTarget capBytes))
    remember fun counters : Counters =>
      { counters with totalBytes := current - freed }

/-! ## Chunks -/

/-- One iteration of `delete_unpinned_chunks`. -/
def deleteUnpinnedChunk (subquery : Tables → List Nat) :
    CacheScript (Int × Nat) := do
  let chunkBytes ← query fun tables : Tables =>
    tables.sumBytes fun row => decide (row.rowid ∈ subquery tables)
  let count ← statement fun tables : Tables =>
    let chosen := fun row : TileRow => decide (row.rowid ∈ subquery tables)
    ((tables.tiles.rows.filter chosen).length, tables.deleteTiles chosen)
  remember fun counters : Counters =>
    { counters with totalBytes := counters.totalBytes - chunkBytes }
  pure (chunkBytes, count)

/-- The loop of `delete_unpinned_chunks` over a table of at most so many
rows. -/
def deleteUnpinnedChunks (subquery : Tables → List Nat) :
    Nat → Int × Nat → CacheScript (Int × Nat)
  | 0, freed => pure freed
  | rows + 1, freed => do
      let chunk ← deleteUnpinnedChunk subquery
      let total := (freed.1 + chunk.1, freed.2 + chunk.2)
      if chunk.2 < deleteChunk then
        pure total
      else
        deleteUnpinnedChunks subquery rows total

def sweepRowids (cutoff : Int) (tables : Tables) : List Nat :=
  TileCache.chunkRowids tables
    (fun row => !row.pinned && decide (row.tile.lastAccess < cutoff))
    TileCache.olderOrSame

def clearRowids (tables : Tables) : List Nat :=
  TileCache.chunkRowids tables (fun row => !row.pinned)
    fun left right => decide (left.rowid ≤ right.rowid)

def sweepAgedUnpinned (rows : Nat) (ttlSecs now : Int) :
    CacheScript (Int × Nat) :=
  if ttlSecs ≤ 0 then
    pure (0, 0)
  else
    deleteUnpinnedChunks (sweepRowids (now - ttlSecs)) rows (0, 0)

/-- A `PRAGMA` which changes no table. -/
def pragma (value : Nat) : CacheScript Nat := query fun _ => value

/-- The steps of `reclaim_free_pages` over what they find. -/
def reclaimSteps (autoVacuum : Nat) :
    List (Nat × Nat) → CacheScript Unit
  | [] => do
      let mode ← pragma autoVacuum
      if mode ≠ 2 then
        fail .invalidQuery
      else do
        let _ ← pragma 0
        pure ()
  | (before, after) :: steps => do
      let mode ← pragma autoVacuum
      if mode ≠ 2 then
        fail .invalidQuery
      else do
        let found ← pragma before
        if found = 0 then
          pure ()
        else do
          let _ ← pragma 0
          let _ ← pragma 0
          let left ← pragma after
          if left = 0 then
            pure ()
          else if left ≥ found then
            fail .invalidQuery
          else
            reclaimSteps autoVacuum steps

def reclaimFreePages (pages : FreePages) : CacheScript Unit := do
  let mode ← pragma pages.autoVacuum
  if mode ≠ 2 then
    pure ()
  else do
    let _ ← pragma 0
    reclaimSteps pages.autoVacuum pages.steps

def clearUnpinned (rows : Nat) (pages : FreePages) :
    CacheScript (Int × Nat) := do
  let freed ← deleteUnpinnedChunks clearRowids rows (0, 0)
  reclaimFreePages pages
  pure freed

/-! ## The pinned batch -/

/-- `batch_physical_growth_conn`: one `SELECT` for each key which has not
occurred in the batch. -/
def batchPhysicalGrowthConn :
    List WarmRow → (TileKey → Option Int) → Int → CacheScript Int
  | [], _, growth => pure growth
  | row :: rows, current, growth => do
      let oldBytes ← match current row.key with
        | some bytes => pure bytes
        | none => query fun tables : Tables =>
            (tables.row row.key).elim 0 TileRow.bytes
      batchPhysicalGrowthConn rows
        (fun key => if key = row.key then some row.tile.bytes else current key)
        (saturatingAddI64 growth (max (row.tile.bytes - oldBytes) 0))

/-- The locals of the loop in `put_many_pinned`. -/
structure PutLocals where
  added : Int
  reportedAdded : Int
  pinnedAdded : Int
  categoryAdded : Int
  stored : Nat
  capped : Bool

namespace PutLocals

/-- The two `break` conditions. -/
def exceeds (locals : PutLocals) (budget cap pinnedBase categoryBase
    pinDelta categoryDelta : Int) : Bool :=
  (decide (pinDelta > 0) &&
    decide (pinnedBase + locals.pinnedAdded + pinDelta > cap)) ||
  (decide (categoryDelta > 0) &&
    decide (categoryBase + locals.categoryAdded + categoryDelta > budget))

def add (locals : PutLocals) (delta pinDelta categoryDelta : Int) :
    PutLocals where
  added := locals.added + delta
  reportedAdded := locals.reportedAdded + max delta 0
  pinnedAdded := locals.pinnedAdded + pinDelta
  categoryAdded := locals.categoryAdded + categoryDelta
  stored := locals.stored + 1
  capped := locals.capped

end PutLocals

def insertMember (regionId : Option String) (key : TileKey) :
    CacheScript Unit :=
  match regionId with
  | some id => execute fun tables => tables.joinTile id key
  | none => pure ()

def putRows (budget cap pinnedBase categoryBase : Int)
    (regionId : Option String) (now : Int) :
    List WarmRow → PutLocals → CacheScript PutLocals
  | [], locals => pure locals
  | row :: rows, locals => do
      let previous ← query fun tables : Tables => tables.row row.key
      let oldBytes := previous.elim 0 TileRow.bytes
      let wasPinned := previous.elim false TileRow.pinned
      let delta := row.tile.bytes - oldBytes
      let wasInCategory ← query fun tables : Tables =>
        tables.keyInCategory row.key regionId
      let pinDelta := if wasPinned then delta else row.tile.bytes
      let categoryDelta := if wasInCategory then delta else row.tile.bytes
      if locals.exceeds budget cap pinnedBase categoryBase pinDelta
          categoryDelta then
        pure { locals with capped := true }
      else do
        execute fun tables : Tables =>
          tables.replaceTile row.key row.tile now true
        insertMember regionId row.key
        putRows budget cap pinnedBase categoryBase regionId now rows
          (locals.add delta pinDelta categoryDelta)

/-- The transaction of `put_many_pinned`: its locals and the freed bytes. -/
def putBatch (budget cap base pinnedBase categoryBase : Int)
    (regionId : Option String) (now : Int) (rows : List WarmRow) :
    CacheScript (PutLocals × Int) := do
  let locals ← putRows budget cap pinnedBase categoryBase regionId now rows
    { added := 0
      reportedAdded := 0
      pinnedAdded := 0
      categoryAdded := 0
      stored := 0
      capped := false }
  let newTotal := base + locals.added
  if newTotal > cap then do
    let freed ← evictUnpinnedWithin newTotal (evictionTarget cap)
    pure (locals, freed)
  else
    pure (locals, 0)

def putManyPinned (disk : DiskSpace) (rows : List WarmRow)
    (budget cap : Int) (regionId : Option String) (now : Int) :
    CacheScript PutManyOutcome := do
  let requestedGrowth ← batchPhysicalGrowthConn rows (fun _ => none) 0
  let room ← hasDiskHeadroomConn disk requestedGrowth
  if room then do
    let base ← consult Counters.totalBytes
    let pinnedBase ← consult Counters.pinnedBytes
    let categoryBase ← query fun tables : Tables =>
      tables.categoryBytes regionId
    let applied ← attempt (transaction (fun _ => true)
      (putBatch budget cap base pinnedBase categoryBase regionId now rows))
    match applied with
    | .ok (locals, freed) => do
        remember fun counters : Counters =>
          { counters with
            totalBytes := base + locals.added - freed
            pinnedBytes := pinnedBase + locals.pinnedAdded
            regionsDirty := true }
        pure
          { stored := locals.stored
            bytesAdded := locals.reportedAdded
            capped := locals.capped }
    | .error .diskFull => pure .diskPressure
    | .error reported => fail reported
  else
    pure .diskPressure

/-! ## Pins and regions -/

def pinLocked (key : TileKey) (regionId : Option String) (wasPinned : Bool)
    (tileBytes : Int) : CacheScript Unit := do
  transaction (fun _ => true) (do
    execute fun tables : Tables =>
      tables.setPinned (fun row => decide (row.key = key)) true
    insertMember regionId key)
  remember fun counters : Counters =>
    { counters with
      pinnedBytes :=
        if wasPinned then counters.pinnedBytes
        else counters.pinnedBytes + tileBytes
      regionsDirty := true }

def pinIfFreshCapped (key : TileKey) (now freshSecs negativeTtlSecs : Int)
    (budgets : PinBudgets) (regionId : Option String) :
    CacheScript FreshPinOutcome := do
  let found ← query fun tables : Tables => tables.row key
  match found with
  | none => pure .missingOrStale
  | some row =>
      if TileCache.isFresh row.tile now freshSecs negativeTtlSecs = false then
        pure .missingOrStale
      else do
        let inCategory ← query fun tables : Tables =>
          tables.keyInCategory key regionId
        let categoryBytes ← query fun tables : Tables =>
          tables.categoryBytes regionId
        let pinnedBytes ← consult Counters.pinnedBytes
        if inCategory = false ∧ row.bytes > 0 ∧
            categoryBytes + row.bytes > budgets.categoryBytes then
          pure .capped
        else if row.pinned = false ∧ row.bytes > 0 ∧
            pinnedBytes + row.bytes > budgets.physicalBytes then
          pure .capped
        else do
          pinLocked key regionId row.pinned row.bytes
          pure .pinned

def pinForRegion (key : TileKey) (budget : Int) (regionId : Option String) :
    CacheScript Bool := do
  let found ← query fun tables : Tables => tables.row key
  match found with
  | none => pure false
  | some row => do
      let inCategory ← query fun tables : Tables =>
        tables.keyInCategory key regionId
      let categoryBytes ← query fun tables : Tables =>
        tables.categoryBytes regionId
      if inCategory = false ∧ row.bytes > 0 ∧
          categoryBytes + row.bytes > budget then
        pure false
      else do
        pinLocked key regionId row.pinned row.bytes
        pure true

/-- The sum which three methods read after their commit. -/
def refreshPinned : CacheScript Unit := do
  let pinnedBytes ← query Tables.pinnedSum
  remember fun counters : Counters =>
    { counters with pinnedBytes := pinnedBytes, regionsDirty := true }

/-- Drop regions and demote what no region names. -/
def dropStatements (select : String → Bool) : CacheScript Unit := do
  execute fun tables : Tables => tables.dropRegions select
  execute Tables.demoteUnreferenced

def deleteRegion (regionId : String) : CacheScript Unit := do
  transaction (fun _ => true) (dropStatements fun id => id == regionId)
  refreshPinned

def cleanupAbandonedStaging : CacheScript Unit := do
  transaction (fun _ => true) (dropStatements fun id =>
    startsWith id stagingRegionPrefix)
  refreshPinned

/-- The four statements for one replacement. -/
def replaceRegion (staging target : String) : CacheScript Unit := do
  execute fun tables : Tables => tables.setPinned
    (fun row => row.pinned &&
      (tables.memberWhere (fun id => id == target) row.key &&
        !tables.memberWhere (fun id => id != target) row.key))
    false
  execute fun tables : Tables => tables.dropRegions fun id => id == target
  execute fun tables : Tables => tables.renameRegion staging target
  execute fun tables : Tables => tables.setPinned
    (fun row => tables.memberWhere (fun id => id == target) row.key) true

def replaceRegions : List (String × String) → CacheScript Unit
  | [] => pure ()
  | (staging, target) :: rest => do
      replaceRegion staging target
      replaceRegions rest

/-- The transaction of a promotion, up to its gates. -/
def promotion (replacements : List (String × String))
    (realBudget positionBudget cap : Int) : CacheScript Bool := do
  replaceRegions replacements
  let physical ← query Tables.pinnedSum
  let real ← query fun tables : Tables =>
    tables.categoryBytes (some basemapAssetsRegionId)
  let position ← query fun tables : Tables =>
    tables.categoryBytes (some positionWarmRegionId)
  pure (!decide (physical > cap ∨ real > realBudget ∨
    position > positionBudget))

def promoteStagedRegions (replacements : List (String × String))
    (realBudget positionBudget cap : Int) : CacheScript Bool := do
  let promoted ← transaction id
    (promotion replacements realBudget positionBudget cap)
  if promoted then do
    refreshPinned
    pure true
  else
    pure false

def realRegionPinnedBytes (positionId : String) : CacheScript Int := do
  let dirty ← consult Counters.regionsDirty
  if dirty = false then
    consult Counters.realRegionCache
  else do
    let value ← query fun tables : Tables => tables.realRegionSum positionId
    remember fun counters : Counters =>
      { counters with realRegionCache := value, regionsDirty := false }
    pure value

end Statements

/-- The script of a call. -/
def CacheOp.statements : CacheOp → CacheScript Unit
  | .put disk key tile pinned now => do
      let _ ← Statements.put disk key tile pinned now
      pure ()
  | .touch key now => Statements.touch key now
  | .putManyPinned disk rows budget cap regionId now => do
      let _ ← Statements.putManyPinned disk rows budget cap regionId now
      pure ()
  | .pinIfFreshCapped key now freshSecs negativeTtlSecs budgets regionId => do
      let _ ← Statements.pinIfFreshCapped key now freshSecs negativeTtlSecs
        budgets regionId
      pure ()
  | .pinForRegion key budget regionId => do
      let _ ← Statements.pinForRegion key budget regionId
      pure ()
  | .deleteRegion regionId => Statements.deleteRegion regionId
  | .promoteStagedRegions replacements realBudget positionBudget cap => do
      let _ ← Statements.promoteStagedRegions replacements realBudget
        positionBudget cap
      pure ()
  | .evictTo capBytes => Statements.evictTo capBytes
  | .cleanupAbandonedStaging => Statements.cleanupAbandonedStaging
  | .sweepChunk cutoff => do
      let _ ← Statements.deleteUnpinnedChunk (Statements.sweepRowids cutoff)
      pure ()
  | .clearChunk => do
      let _ ← Statements.deleteUnpinnedChunk Statements.clearRowids
      pure ()
  | .realRegionPinnedBytes => do
      let _ ← Statements.realRegionPinnedBytes positionWarmRegionId
      pure ()

/-- A method which writes the tile tables: a call under one lock, or one of
the two loops which release the lock between their chunks. -/
inductive Method where
  | call (op : CacheOp)
  | sweepAgedUnpinned (ttlSecs now : Int)
  | clearUnpinned (pages : FreePages)

namespace Method

def statements (rows : Nat) : Method → CacheScript Unit
  | .call op => op.statements
  | .sweepAgedUnpinned ttlSecs now => do
      let _ ← Statements.sweepAgedUnpinned rows ttlSecs now
      pure ()
  | .clearUnpinned pages => do
      let _ ← Statements.clearUnpinned rows pages
      pure ()

/-- The method over a cache, with the statements which fail. -/
def run (method : Method) (faults : FaultPlan SqlError) (cache : TileCache) :
    Except SqlError Unit × Session Tables Counters :=
  method.statements (cache.tables.tiles.rows.length + 1) faults cache.session

end Method

/-! ## The table of the learned styles -/

section Learned

/-- What the table keeps of a learned style, which its source identifies. -/
structure LearnedRecord where
  source : String
  sourceSignature : String
  stateJson : Blob
  fetchedAt : Int

abbrev LearnedTable : Type := KeyedTable LearnedRecord.source

abbrev LearnedScript (α : Type) : Type :=
  Script SqlError LearnedTable Counters α

inductive LearnedMethod where
  | storeLearnedStyle (record : LearnedRecord)
  | reconcileLearnedStyles (sourceSignatures : List (String × String))
      (maxStateBytes : Nat)
  | deleteLearnedStyle (source : String)

/-- The point lookups of `reconcile_learned_styles`. -/
def retainedRecords (maxStateBytes : Nat) :
    List (String × String) → LearnedScript (List LearnedRecord)
  | [] => pure []
  | (source, signature) :: rest => do
      let found ← query fun table : LearnedTable =>
        (table.lookup source).filter fun record =>
          decide (record.sourceSignature = signature ∧
            record.stateJson.length ≤ maxStateBytes)
      let others ← retainedRecords maxStateBytes rest
      pure (found.toList ++ others)

def insertRecords : List LearnedRecord → LearnedScript Unit
  | [] => pure ()
  | record :: rest => do
      execute fun table : LearnedTable => table.insertOrReplace record
      insertRecords rest

def LearnedMethod.statements : LearnedMethod → LearnedScript Unit
  | .storeLearnedStyle record =>
      execute fun table => table.insertOrReplace record
  | .reconcileLearnedStyles sourceSignatures maxStateBytes =>
      transaction (fun _ => true) (do
        let retained ← retainedRecords maxStateBytes sourceSignatures
        execute fun _ : LearnedTable => KeyedTable.empty
        insertRecords retained)
  | .deleteLearnedStyle source =>
      execute fun table =>
        table.deleteWhere fun record => record.source == source

end Learned

end ChartLocker.Cache
