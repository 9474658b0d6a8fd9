import ChartLocker.Library.KeyedTable
import Mathlib.Data.Finset.Basic
import Mathlib.Data.Finset.Image
import Mathlib.Data.List.MinMax

/-!
# The cache database

The two tables of `cache.rs` and the statements which its methods execute on
them.  `tiles` is a rowid table with the primary key `(source, z, x, y)`;
`region_tiles` consists of nothing but its primary key, so it is a finite set.
There is no foreign key between the two: that every join names a stored tile
is a theorem about the operations and not a property of this model.
-/

namespace ChartLocker.Cache

open Library

def stagingRegionPrefix : String := "__warm_staging__"

def positionStagingRegionPrefix : String := "__warm_staging__position-"

def positionWarmRegionId : String := "__position_warm__"

def basemapAssetsRegionId : String := "__basemap_assets__"

/-- `str::starts_with`, and the `substr` comparison of the statements. -/
def startsWith (value lead : String) : Bool :=
  lead.toList.isPrefixOf value.toList

/-- The position-warm region and its staging regions. -/
def isPositionRegion (regionId : String) : Bool :=
  regionId == positionWarmRegionId ||
    startsWith regionId positionStagingRegionPrefix

structure TileKey where
  source : String
  z : Nat
  x : Nat
  y : Nat
deriving DecidableEq, Repr

abbrev Blob : Type := List UInt8

/-- A stored tile, or a negative marker when `blob` is `none`. -/
structure CachedTile where
  contentType : String
  strongEtag : String
  upstreamValidator : Option String
  status : Int
  fetchedAt : Int
  lastAccess : Int
  bytes : Int
  blob : Option Blob
deriving DecidableEq, Repr

def negativeRowCostBytes : Int := 512

def CachedTile.negative (status now : Int) : CachedTile where
  contentType := ""
  strongEtag := ""
  upstreamValidator := none
  status := status
  fetchedAt := now
  lastAccess := now
  bytes := negativeRowCostBytes
  blob := none

structure TileRow where
  rowid : Nat
  key : TileKey
  tile : CachedTile
  pinned : Bool
deriving DecidableEq, Repr

def TileRow.bytes (row : TileRow) : Int := row.tile.bytes

def TileRow.withPinned (pinned : Bool) (row : TileRow) : TileRow :=
  { row with pinned := pinned }

def TileRow.accessed (now : Int) (row : TileRow) : TileRow :=
  { row with
    tile := { row.tile with lastAccess := max row.tile.lastAccess now } }

theorem TileRow.key_withPinned (pinned : Bool) (row : TileRow) :
    (row.withPinned pinned).key = row.key :=
  rfl

theorem TileRow.key_accessed (now : Int) (row : TileRow) :
    (row.accessed now).key = row.key :=
  rfl

structure RegionTile where
  regionId : String
  key : TileKey
deriving DecidableEq, Repr

structure Tables where
  tiles : KeyedTable TileRow.key
  rowids : (tiles.rows.map TileRow.rowid).Nodup
  regionTiles : Finset RegionTile

namespace Tables

def empty : Tables where
  tiles := KeyedTable.empty
  rowids := by simp [KeyedTable.empty]
  regionTiles := ∅

/-! ## Reads -/

def row (tables : Tables) (key : TileKey) : Option TileRow :=
  tables.tiles.lookup key

def get (tables : Tables) (key : TileKey) : Option CachedTile :=
  (tables.row key).map TileRow.tile

def isPinned (tables : Tables) (key : TileKey) : Bool :=
  (tables.row key).elim false TileRow.pinned

/-- `EXISTS (SELECT 1 FROM region_tiles ...)` for one tile. -/
def memberWhere (tables : Tables) (select : String → Bool)
    (key : TileKey) : Bool :=
  decide (∃ entry ∈ tables.regionTiles,
    entry.key = key ∧ select entry.regionId = true)

def sumBytes (tables : Tables) (select : TileRow → Bool) : Int :=
  tables.tiles.sumWhere select TileRow.bytes

def totalSum (tables : Tables) : Int :=
  tables.sumBytes fun _ => true

def pinnedSum (tables : Tables) : Int :=
  tables.sumBytes TileRow.pinned

/-- `category_bytes_conn`. -/
def categoryBytes (tables : Tables) (regionId : Option String) : Int :=
  match regionId with
  | some id =>
      if isPositionRegion id then
        tables.sumBytes fun row => tables.memberWhere isPositionRegion row.key
      else
        tables.sumBytes fun row =>
          tables.memberWhere (fun other => !isPositionRegion other) row.key
  | none => tables.pinnedSum

/-- `key_in_category_conn`. -/
def keyInCategory (tables : Tables) (key : TileKey)
    (regionId : Option String) : Bool :=
  match regionId with
  | some id =>
      if isPositionRegion id then
        tables.memberWhere isPositionRegion key
      else
        tables.memberWhere (fun other => !isPositionRegion other) key
  | none => tables.isPinned key

/-- The query of `real_region_pinned_bytes`. -/
def realRegionSum (tables : Tables) (positionId : String) : Int :=
  tables.sumBytes fun row =>
    row.pinned &&
      tables.memberWhere (fun other =>
        other != positionId &&
          !startsWith other positionStagingRegionPrefix) row.key

/-- `region_bytes`. -/
def regionBytes (tables : Tables) (regionId : String) : Int :=
  tables.sumBytes fun row =>
    tables.memberWhere (fun other => other == regionId) row.key

/-! ## Statements on `tiles` -/

/-- SQLite numbers a new row one past the largest rowid in the table, counting
the row which a replacement is about to delete. -/
def nextRowid (tables : Tables) : Nat :=
  (tables.tiles.rows.map TileRow.rowid).foldr max 0 + 1

theorem rowid_lt_nextRowid {tables : Tables} {row : TileRow}
    (member : row ∈ tables.tiles.rows) : row.rowid < tables.nextRowid := by
  have bound : row.rowid ≤ (tables.tiles.rows.map TileRow.rowid).foldr max 0 :=
    List.le_max_of_le' 0 (List.mem_map.mpr ⟨row, member, rfl⟩) le_rfl
  exact Nat.lt_succ_of_le bound

private theorem rowids_insertOrReplace (tables : Tables) (new : TileRow)
    (fresh : new.rowid = tables.nextRowid) :
    ((tables.tiles.insertOrReplace new).rows.map TileRow.rowid).Nodup := by
  simp only [KeyedTable.insertOrReplace, List.map_append, List.map_cons,
    List.map_nil]
  rw [List.nodup_append]
  refine ⟨tables.rowids.sublist (List.filter_sublist.map _), by simp, ?_⟩
  intro left leftMember right rightMember
  obtain ⟨old, oldMember, rfl⟩ := List.mem_map.mp leftMember
  have below := rowid_lt_nextRowid (List.mem_of_mem_filter oldMember)
  have equality : right = new.rowid := by simpa using rightMember
  omega

/-- `INSERT OR REPLACE INTO tiles`. -/
def replaceTile (tables : Tables) (key : TileKey) (tile : CachedTile)
    (now : Int) (pinned : Bool) : Tables where
  tiles := tables.tiles.insertOrReplace
    ⟨tables.nextRowid, key, { tile with lastAccess := now }, pinned⟩
  rowids := rowids_insertOrReplace tables _ rfl
  regionTiles := tables.regionTiles

/-- `DELETE FROM tiles WHERE ...`. -/
def deleteTiles (tables : Tables) (drop : TileRow → Bool) : Tables where
  tiles := tables.tiles.deleteWhere drop
  rowids := tables.rowids.sublist (List.filter_sublist.map _)
  regionTiles := tables.regionTiles

private theorem rowids_updateWhere (tables : Tables)
    (select : TileRow → Bool) {update : TileRow → TileRow}
    (keepsKey : ∀ row, (update row).key = row.key)
    (keepsRowid : ∀ row, (update row).rowid = row.rowid) :
    ((tables.tiles.updateWhere select update keepsKey).rows.map
      TileRow.rowid).Nodup := by
  have same : (tables.tiles.updateWhere select update keepsKey).rows.map
      TileRow.rowid = tables.tiles.rows.map TileRow.rowid := by
    simp only [KeyedTable.updateWhere, List.map_map]
    apply List.map_congr_left
    intro row _
    by_cases chosen : select row = true
    · simp [chosen, keepsRowid]
    · simp [chosen]
  rw [same]
  exact tables.rowids

/-- An `UPDATE tiles` which leaves the key and the rowid as they are. -/
def updateTiles (tables : Tables) (select : TileRow → Bool)
    (update : TileRow → TileRow)
    (keepsKey : ∀ row, (update row).key = row.key)
    (keepsRowid : ∀ row, (update row).rowid = row.rowid) : Tables where
  tiles := tables.tiles.updateWhere select update keepsKey
  rowids := rowids_updateWhere tables select keepsKey keepsRowid
  regionTiles := tables.regionTiles

/-- `UPDATE tiles SET pinned = ... WHERE ...`. -/
def setPinned (tables : Tables) (select : TileRow → Bool)
    (pinned : Bool) : Tables :=
  tables.updateTiles select (TileRow.withPinned pinned)
    (TileRow.key_withPinned pinned) fun _ => rfl

/-- `UPDATE tiles SET last_access = MAX(last_access, now) WHERE ...`. -/
def touchTile (tables : Tables) (key : TileKey) (now : Int) : Tables :=
  tables.updateTiles (fun row => decide (row.key = key))
    (TileRow.accessed now) (TileRow.key_accessed now) fun _ => rfl

/-- Demote every pinned row which no region names. -/
def demoteUnreferenced (tables : Tables) : Tables :=
  tables.setPinned
    (fun row => row.pinned && !tables.memberWhere (fun _ => true) row.key)
    false

/-! ## Statements on `region_tiles` -/

/-- `INSERT OR IGNORE INTO region_tiles`. -/
def joinTile (tables : Tables) (regionId : String) (key : TileKey) : Tables :=
  { tables with
    regionTiles := insert ⟨regionId, key⟩ tables.regionTiles }

/-- `DELETE FROM region_tiles WHERE ...`. -/
def dropRegions (tables : Tables) (select : String → Bool) : Tables :=
  { tables with
    regionTiles := tables.regionTiles.filter fun entry =>
      select entry.regionId = false }

/-- `UPDATE region_tiles SET region_id = ... WHERE region_id = ...`. -/
def renameRegion (tables : Tables) (source target : String) : Tables :=
  { tables with
    regionTiles := tables.regionTiles.image fun entry =>
      if entry.regionId = source then { entry with regionId := target }
      else entry }

/-! ## Rows after a statement -/

section Rows

variable {tables : Tables} {found : TileRow}

theorem row_eq_some {key : TileKey} :
    tables.row key = some found ↔
      found ∈ tables.tiles.rows ∧ found.key = key :=
  KeyedTable.lookup_eq_some

theorem memberWhere_eq_true {select : String → Bool} {key : TileKey} :
    tables.memberWhere select key = true ↔
      ∃ id, ⟨id, key⟩ ∈ tables.regionTiles ∧ select id = true := by
  simp only [memberWhere, decide_eq_true_eq]
  constructor
  · rintro ⟨⟨id, _⟩, member, rfl, chosen⟩
    exact ⟨id, member, chosen⟩
  · rintro ⟨id, member, chosen⟩
    exact ⟨⟨id, key⟩, member, rfl, chosen⟩

theorem isPinned_eq_true {key : TileKey} :
    tables.isPinned key = true ↔
      ∃ row, tables.row key = some row ∧ row.pinned = true := by
  cases stored : tables.row key <;> simp [isPinned, stored]

theorem row_key {key : TileKey} (stored : tables.row key = some found) :
    found.key = key :=
  tables.tiles.lookup_key stored

theorem row_replaceTile (key : TileKey) (tile : CachedTile) (now : Int)
    (pinned : Bool) (wanted : TileKey) :
    (tables.replaceTile key tile now pinned).row wanted =
      if wanted = key then
        some ⟨tables.nextRowid, key, { tile with lastAccess := now }, pinned⟩
      else
        tables.row wanted :=
  tables.tiles.lookup_insertOrReplace _ wanted

theorem row_deleteTiles (drop : TileRow → Bool) (wanted : TileKey) :
    (tables.deleteTiles drop).row wanted =
      (tables.row wanted).filter fun row => !drop row :=
  tables.tiles.lookup_deleteWhere drop wanted

theorem row_setPinned (select : TileRow → Bool) (pinned : Bool)
    (wanted : TileKey) :
    (tables.setPinned select pinned).row wanted =
      (tables.row wanted).map fun row =>
        if select row then row.withPinned pinned else row :=
  tables.tiles.lookup_updateWhere select (TileRow.key_withPinned pinned)
    wanted

theorem row_touchTile (key : TileKey) (now : Int) (wanted : TileKey) :
    (tables.touchTile key now).row wanted =
      (tables.row wanted).map fun row =>
        if decide (row.key = key) then row.accessed now else row :=
  tables.tiles.lookup_updateWhere _ (TileRow.key_accessed now) wanted

@[simp] theorem row_joinTile (regionId : String) (key wanted : TileKey) :
    (tables.joinTile regionId key).row wanted = tables.row wanted :=
  rfl

@[simp] theorem row_dropRegions (select : String → Bool) (wanted : TileKey) :
    (tables.dropRegions select).row wanted = tables.row wanted :=
  rfl

@[simp] theorem row_renameRegion (source target : String)
    (wanted : TileKey) :
    (tables.renameRegion source target).row wanted = tables.row wanted :=
  rfl

@[simp] theorem regionTiles_replaceTile (key : TileKey) (tile : CachedTile)
    (now : Int) (pinned : Bool) :
    (tables.replaceTile key tile now pinned).regionTiles =
      tables.regionTiles :=
  rfl

@[simp] theorem regionTiles_deleteTiles (drop : TileRow → Bool) :
    (tables.deleteTiles drop).regionTiles = tables.regionTiles :=
  rfl

@[simp] theorem regionTiles_setPinned (select : TileRow → Bool)
    (pinned : Bool) :
    (tables.setPinned select pinned).regionTiles = tables.regionTiles :=
  rfl

@[simp] theorem regionTiles_touchTile (key : TileKey) (now : Int) :
    (tables.touchTile key now).regionTiles = tables.regionTiles :=
  rfl

theorem mem_joinTile {regionId id : String} {key other : TileKey} :
    ⟨id, other⟩ ∈ (tables.joinTile regionId key).regionTiles ↔
      (id = regionId ∧ other = key) ∨ ⟨id, other⟩ ∈ tables.regionTiles := by
  simp [joinTile]

theorem mem_dropRegions {select : String → Bool} {id : String}
    {key : TileKey} :
    ⟨id, key⟩ ∈ (tables.dropRegions select).regionTiles ↔
      ⟨id, key⟩ ∈ tables.regionTiles ∧ select id = false := by
  simp [dropRegions]

theorem mem_renameRegion {source target id : String} {key : TileKey} :
    ⟨id, key⟩ ∈ (tables.renameRegion source target).regionTiles ↔
      (⟨id, key⟩ ∈ tables.regionTiles ∧ id ≠ source) ∨
        (id = target ∧ ⟨source, key⟩ ∈ tables.regionTiles) := by
  simp only [renameRegion, Finset.mem_image]
  constructor
  · rintro ⟨⟨other, otherKey⟩, member, renamed⟩
    by_cases same : other = source
    · simp only [same, if_true, RegionTile.mk.injEq] at renamed
      exact .inr ⟨renamed.1.symm, by simpa [← renamed.2, ← same] using member⟩
    · simp only [same, if_false, RegionTile.mk.injEq] at renamed
      exact .inl ⟨by simpa [← renamed.1, ← renamed.2] using member,
        renamed.1 ▸ same⟩
  · rintro (⟨member, different⟩ | ⟨rfl, member⟩)
    · exact ⟨⟨id, key⟩, member, by simp [different]⟩
    · exact ⟨⟨source, key⟩, member, by simp⟩

theorem deleteTiles_congr {left right : TileRow → Bool}
    (same : ∀ row ∈ tables.tiles.rows, left row = right row) :
    tables.deleteTiles left = tables.deleteTiles right := by
  have rows : tables.tiles.deleteWhere left =
      tables.tiles.deleteWhere right := by
    simp only [KeyedTable.deleteWhere, KeyedTable.mk.injEq]
    exact List.filter_congr fun row member => by rw [same row member]
  simp only [deleteTiles, mk.injEq, and_true]
  exact rows

end Rows

/-! ## Sums after a statement -/

section Sums

variable (tables : Tables)

theorem sumBytes_replaceTile (key : TileKey) (tile : CachedTile) (now : Int)
    (pinned : Bool) (select : TileRow → Bool) :
    (tables.replaceTile key tile now pinned).sumBytes select =
      tables.sumBytes select -
        (tables.row key).elim 0 (KeyedTable.weight select TileRow.bytes) +
        if select ⟨tables.nextRowid, key, { tile with lastAccess := now },
          pinned⟩ then tile.bytes else 0 :=
  tables.tiles.sumWhere_insertOrReplace _ select TileRow.bytes

theorem sumBytes_deleteTiles (drop select : TileRow → Bool) :
    (tables.deleteTiles drop).sumBytes select =
      tables.sumBytes select -
        tables.sumBytes (fun row => select row && drop row) :=
  tables.tiles.sumWhere_deleteWhere drop select TileRow.bytes

theorem sumBytes_setPinned (choose : TileRow → Bool) (pinned : Bool)
    (select : TileRow → Bool) :
    (tables.setPinned choose pinned).sumBytes select =
      tables.sumBytes fun row =>
        if choose row then select (row.withPinned pinned)
        else select row :=
  tables.tiles.sumWhere_updateWhere select choose
    (TileRow.key_withPinned pinned) TileRow.bytes fun _ => rfl

theorem sumBytes_congr {left right : TileRow → Bool}
    (same : ∀ row ∈ tables.tiles.rows, left row = right row) :
    tables.sumBytes left = tables.sumBytes right :=
  KeyedTable.sumWhere_congr same

theorem sumBytes_eq_zero {select : TileRow → Bool}
    (none : ∀ row ∈ tables.tiles.rows, select row = false) :
    tables.sumBytes select = 0 := by
  have same : tables.sumBytes select = tables.sumBytes fun _ => false :=
    tables.sumBytes_congr none
  rw [same]
  simp [sumBytes, KeyedTable.sumWhere]

/-- A touch changes neither the key, the bytes nor the pin of a row. -/
theorem sumBytes_touchTile (key : TileKey) (now : Int)
    {select : TileRow → Bool}
    (blind : ∀ row, select (row.accessed now) = select row) :
    (tables.touchTile key now).sumBytes select = tables.sumBytes select := by
  have updated : (tables.touchTile key now).sumBytes select =
      tables.sumBytes fun row =>
        if decide (row.key = key) then select (row.accessed now)
        else select row :=
    tables.tiles.sumWhere_updateWhere select _
      (TileRow.key_accessed now) TileRow.bytes fun _ => rfl
  simpa only [blind, ite_self] using updated

@[simp] theorem totalSum_setPinned (select : TileRow → Bool) (pinned : Bool) :
    (tables.setPinned select pinned).totalSum = tables.totalSum := by
  simp [totalSum, sumBytes_setPinned]

@[simp] theorem totalSum_joinTile (regionId : String) (key : TileKey) :
    (tables.joinTile regionId key).totalSum = tables.totalSum :=
  rfl

@[simp] theorem totalSum_dropRegions (select : String → Bool) :
    (tables.dropRegions select).totalSum = tables.totalSum :=
  rfl

@[simp] theorem totalSum_renameRegion (source target : String) :
    (tables.renameRegion source target).totalSum = tables.totalSum :=
  rfl

@[simp] theorem pinnedSum_joinTile (regionId : String) (key : TileKey) :
    (tables.joinTile regionId key).pinnedSum = tables.pinnedSum :=
  rfl

theorem totalSum_replaceTile (key : TileKey) (tile : CachedTile) (now : Int)
    (pinned : Bool) :
    (tables.replaceTile key tile now pinned).totalSum =
      tables.totalSum - (tables.row key).elim 0 TileRow.bytes + tile.bytes := by
  simp only [totalSum, sumBytes_replaceTile]
  cases tables.row key with
  | none => simp
  | some old => simp [KeyedTable.weight]

theorem pinnedSum_replaceTile (key : TileKey) (tile : CachedTile) (now : Int)
    (pinned : Bool) :
    (tables.replaceTile key tile now pinned).pinnedSum =
      tables.pinnedSum -
        (if (tables.row key).elim false TileRow.pinned then
          (tables.row key).elim 0 TileRow.bytes else 0) +
        if pinned then tile.bytes else 0 := by
  simp only [pinnedSum, sumBytes_replaceTile]
  cases tables.row key with
  | none => simp
  | some old => rfl

/-- Pinning one stored row adds its bytes unless it was pinned before. -/
theorem pinnedSum_pinKey {key : TileKey} {found : TileRow}
    (stored : tables.row key = some found) :
    (tables.setPinned (fun row => decide (row.key = key)) true).pinnedSum =
      tables.pinnedSum + if found.pinned then 0 else found.bytes := by
  have before := tables.tiles.sumWhere_split TileRow.pinned
    (fun row => decide (row.key = key)) TileRow.bytes
  have after := tables.tiles.sumWhere_split
    (fun row => if decide (row.key = key) then true else row.pinned)
    (fun row => decide (row.key = key)) TileRow.bytes
  have lookup : tables.tiles.lookup key = some found := stored
  rw [tables.tiles.sumWhere_and_key, lookup] at before after
  have outside : tables.tiles.sumWhere
      (fun row => (if decide (row.key = key) then true else row.pinned) &&
        !decide (row.key = key)) TileRow.bytes =
      tables.tiles.sumWhere
        (fun row => row.pinned && !decide (row.key = key)) TileRow.bytes := by
    apply KeyedTable.sumWhere_congr
    intro row _
    by_cases same : row.key = key <;> simp [same]
  have foundKey : found.key = key := (row_eq_some.mp stored).2
  rw [outside] at after
  simp only [pinnedSum, sumBytes_setPinned, TileRow.withPinned]
  unfold sumBytes
  rw [after, before]
  cases pinned : found.pinned with
  | true => simp [KeyedTable.weight, foundKey, pinned]
  | false =>
      simp [KeyedTable.weight, foundKey, pinned]
      omega

end Sums

end Tables

end ChartLocker.Cache
