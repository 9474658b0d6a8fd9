import ChartLocker.Cache.Capacity
import Mathlib.Data.Prod.Lex

/-!
# The windowed eviction

The window `DELETE` of `evict_unpinned_within` against the loop which it
stands for: while the total exceeds the target, delete the unpinned row which
is smallest in `(last_access, rowid)`.
-/

namespace ChartLocker.Cache

open Library

/-- The order of the access times in its computable form. -/
local instance accessTimeOrder : Preorder Int :=
  Int.instLinearOrder.toPreorder

namespace Tables

/-- The place of a row in the eviction order. -/
def accessRank (row : TileRow) : Int ×ₗ Nat :=
  toLex (row.tile.lastAccess, row.rowid)

def unpinnedRows (tables : Tables) : List TileRow :=
  tables.tiles.rows.filter fun row => !row.pinned

def oldestUnpinned (tables : Tables) : Option TileRow :=
  tables.unpinnedRows.argmin accessRank

def deleteKey (tables : Tables) (key : TileKey) : Tables :=
  tables.deleteTiles fun row => decide (row.key = key)

variable {tables : Tables} {oldest row : TileRow}

theorem mem_unpinnedRows :
    row ∈ tables.unpinnedRows ↔
      row ∈ tables.tiles.rows ∧ row.pinned = false := by
  simp [unpinnedRows]

theorem mem_deleteTiles {drop : TileRow → Bool} :
    row ∈ (tables.deleteTiles drop).tiles.rows ↔
      row ∈ tables.tiles.rows ∧ drop row = false :=
  KeyedTable.mem_deleteWhere

/-- The oldest row is unpinned, and no unpinned row is before it. -/
theorem oldestUnpinned_spec (found : tables.oldestUnpinned = some oldest) :
    oldest ∈ tables.tiles.rows ∧ oldest.pinned = false ∧
      ∀ other ∈ tables.tiles.rows, other.pinned = false →
        accessRank oldest ≤ accessRank other := by
  have least : oldest ∈ tables.unpinnedRows.argmin accessRank := found
  have member := mem_unpinnedRows.mp (List.argmin_mem least)
  refine ⟨member.1, member.2, ?_⟩
  intro other otherMember unpinned
  exact List.le_of_mem_argmin (mem_unpinnedRows.mpr ⟨otherMember, unpinned⟩)
    least

theorem oldestUnpinned_eq_none :
    tables.oldestUnpinned = none ↔
      ∀ row ∈ tables.tiles.rows, row.pinned = true := by
  simp [oldestUnpinned, unpinnedRows, List.filter_eq_nil_iff]

theorem length_deleteKey_lt (found : tables.oldestUnpinned = some oldest) :
    (tables.deleteKey oldest.key).unpinnedRows.length <
      tables.unpinnedRows.length := by
  obtain ⟨member, unpinned, _⟩ := oldestUnpinned_spec found
  have shorter : (tables.unpinnedRows.filter fun row =>
      !decide (row.key = oldest.key)).length < tables.unpinnedRows.length := by
    apply List.length_filter_lt_length_iff_exists.mpr
    exact ⟨oldest, mem_unpinnedRows.mpr ⟨member, unpinned⟩, by simp⟩
  have same : (tables.deleteKey oldest.key).unpinnedRows =
      tables.unpinnedRows.filter fun row =>
        !decide (row.key = oldest.key) := by
    simp only [unpinnedRows, deleteKey, deleteTiles, KeyedTable.deleteWhere]
    exact List.filter_comm _ _ _
  rw [same]
  exact shorter

theorem deleteTiles_false : tables.deleteTiles (fun _ => false) = tables := by
  cases tables with
  | mk tiles rowids regionTiles =>
      simp [deleteTiles, KeyedTable.deleteWhere]

/-- Two deletions in one statement. -/
theorem deleteTiles_or (first second : TileRow → Bool) :
    tables.deleteTiles (fun row => first row || second row) =
      (tables.deleteTiles first).deleteTiles second := by
  simp only [deleteTiles, KeyedTable.deleteWhere, mk.injEq,
    KeyedTable.mk.injEq, List.filter_filter, and_true]
  apply List.filter_congr
  intro row _
  cases first row <;> cases second row <;> rfl

/-- The sum over one stored row. -/
theorem sumBytes_and_key (member : row ∈ tables.tiles.rows)
    {select : TileRow → Bool} (selected : select row = true) :
    tables.sumBytes (fun other =>
      select other && decide (other.key = row.key)) = row.bytes := by
  have stored : tables.tiles.lookup row.key = some row :=
    KeyedTable.lookup_eq_some.mpr ⟨member, rfl⟩
  have single := tables.tiles.sumWhere_and_key row.key select TileRow.bytes
  rw [stored] at single
  simp only [Option.elim_some, KeyedTable.weight, selected, if_true] at single
  exact single

/-- A sum over one stored row and others. -/
theorem sumBytes_or_key (member : row ∈ tables.tiles.rows)
    (select : TileRow → Bool) :
    tables.sumBytes (fun other =>
      decide (other.key = row.key) || select other) =
        row.bytes + (tables.deleteKey row.key).sumBytes select := by
  have all := tables.tiles.sumWhere_split
    (fun other => decide (other.key = row.key) || select other)
    (fun other => decide (other.key = row.key)) TileRow.bytes
  have own : tables.sumBytes (fun other =>
      (decide (other.key = row.key) || select other) &&
        decide (other.key = row.key)) = row.bytes :=
    sumBytes_and_key member (by simp)
  have rest := tables.tiles.sumWhere_split select
    (fun other => decide (other.key = row.key)) TileRow.bytes
  have outside : tables.tiles.sumWhere (fun other =>
      (decide (other.key = row.key) || select other) &&
        !decide (other.key = row.key)) TileRow.bytes =
      tables.tiles.sumWhere (fun other =>
        select other && !decide (other.key = row.key)) TileRow.bytes := by
    apply KeyedTable.sumWhere_congr
    intro other _
    cases decide (other.key = row.key) <;> simp
  rw [deleteKey, sumBytes_deleteTiles]
  unfold sumBytes at *
  omega

end Tables

/-- The loop: delete the oldest unpinned row while the total exceeds the
target and there is one.  The freed bytes and the tables after it. -/
def evictOneByOne (tables : Tables) (total target : Int) : Int × Tables :=
  if total ≤ target then
    (0, tables)
  else
    match _found : tables.oldestUnpinned with
    | none => (0, tables)
    | some oldest =>
        let rest := evictOneByOne (tables.deleteKey oldest.key)
          (total - oldest.bytes) target
        (oldest.bytes + rest.1, rest.2)
termination_by tables.unpinnedRows.length
decreasing_by exact Tables.length_deleteKey_lt (by assumption)

namespace TileCache

variable {tables : Tables} {oldest row : TileRow}

theorem olderOrSame_iff {left right : TileRow} :
    olderOrSame left right = true ↔
      Tables.accessRank left ≤ Tables.accessRank right := by
  simp [olderOrSame, Tables.accessRank, Prod.Lex.toLex_le_toLex]

/-- Rows of one table have different places in the eviction order. -/
theorem eq_of_accessRank_eq {left right : TileRow}
    (leftMember : left ∈ tables.tiles.rows)
    (rightMember : right ∈ tables.tiles.rows)
    (same : Tables.accessRank left = Tables.accessRank right) :
    left = right := by
  apply List.inj_on_of_nodup_map tables.rowids leftMember rightMember
  have parts : (left.tile.lastAccess, left.rowid) =
      (right.tile.lastAccess, right.rowid) := toLex_inj.mp same
  exact (Prod.mk.inj parts).2

theorem priorBytes_oldest (found : tables.oldestUnpinned = some oldest) :
    priorBytes tables oldest = 0 := by
  obtain ⟨member, unpinned, least⟩ := Tables.oldestUnpinned_spec found
  have only : tables.sumBytes (fun other =>
      !other.pinned && olderOrSame other oldest) =
        tables.sumBytes fun other =>
          true && decide (other.key = oldest.key) := by
    apply Tables.sumBytes_congr
    intro other otherMember
    rw [Bool.eq_iff_iff]
    simp only [Bool.and_eq_true, Bool.not_eq_true', olderOrSame_iff,
      decide_eq_true_eq, true_and]
    constructor
    · rintro ⟨free, older⟩
      have same := eq_of_accessRank_eq otherMember member
        (le_antisymm older (least other otherMember free))
      rw [same]
    · intro same
      have equality := tables.tiles.eq_of_key_eq otherMember member same
      rw [equality]
      exact ⟨unpinned, le_rfl⟩
  rw [priorBytes, only, Tables.sumBytes_and_key member rfl, sub_self]

theorem priorBytes_nonneg (sized : tables.Stores CachedTile.Sized)
    (member : row ∈ tables.tiles.rows) (unpinned : row.pinned = false) :
    0 ≤ priorBytes tables row := by
  have split := tables.tiles.sumWhere_split
    (fun other => !other.pinned && olderOrSame other row)
    (fun other => decide (other.key = row.key)) TileRow.bytes
  have own : tables.sumBytes (fun other =>
      (!other.pinned && olderOrSame other row) &&
        decide (other.key = row.key)) = row.bytes :=
    Tables.sumBytes_and_key member (by simp [unpinned, olderOrSame_iff])
  have rest : 0 ≤ tables.tiles.sumWhere (fun other =>
      (!other.pinned && olderOrSame other row) &&
        !decide (other.key = row.key)) TileRow.bytes :=
    KeyedTable.sumWhere_nonneg sized
  unfold priorBytes
  unfold Tables.sumBytes at own ⊢
  omega

/-- Without the oldest row, every other row has so much less before it. -/
theorem priorBytes_deleteKey (found : tables.oldestUnpinned = some oldest)
    (member : row ∈ tables.tiles.rows) (unpinned : row.pinned = false) :
    priorBytes (tables.deleteKey oldest.key) row =
      priorBytes tables row - oldest.bytes := by
  obtain ⟨oldestMember, free, least⟩ := Tables.oldestUnpinned_spec found
  have counted : (!oldest.pinned && olderOrSame oldest row) = true := by
    simp [free, olderOrSame_iff, least row member unpinned]
  have removed : tables.sumBytes (fun other =>
      (!other.pinned && olderOrSame other row) &&
        decide (other.key = oldest.key)) = oldest.bytes :=
    Tables.sumBytes_and_key oldestMember counted
  simp only [priorBytes, Tables.deleteKey, Tables.sumBytes_deleteTiles,
    removed]
  omega

/-- The rows which the window selects. -/
def windowVictim (tables : Tables) (toFree : Int) (row : TileRow) : Bool :=
  !row.pinned && decide (priorBytes tables row < toFree)

/-- A window with nothing to free selects nothing. -/
theorem windowVictim_eq_false (sized : tables.Stores CachedTile.Sized)
    {toFree : Int} (enough : toFree ≤ 0) :
    ∀ row ∈ tables.tiles.rows, windowVictim tables toFree row = false := by
  intro row member
  cases pinned : row.pinned with
  | true => simp [windowVictim, pinned]
  | false =>
      have prior := priorBytes_nonneg sized member pinned
      simp only [windowVictim, pinned, Bool.not_false, Bool.true_and,
        decide_eq_false_iff_not]
      omega

/-- The `DELETE` is the window, also where the method returns early. -/
theorem evictUnpinnedWithin_eq (sized : tables.Stores CachedTile.Sized)
    (total target : Int) :
    evictUnpinnedWithin tables total target =
      (tables.sumBytes (windowVictim tables (total - target)),
        tables.deleteTiles (windowVictim tables (total - target))) := by
  unfold evictUnpinnedWithin
  split
  · next within =>
    have enough : total - target ≤ 0 := by omega
    have nothing := windowVictim_eq_false sized enough
    rw [tables.sumBytes_eq_zero nothing, Tables.deleteTiles_congr nothing,
      Tables.deleteTiles_false]
  · rfl

/-- The window selects the oldest row, and then what the window over the
other rows selects. -/
theorem windowVictim_cons (found : tables.oldestUnpinned = some oldest)
    {toFree : Int} (deficit : 0 < toFree)
    (member : row ∈ tables.tiles.rows) :
    windowVictim tables toFree row =
      (decide (row.key = oldest.key) ||
        windowVictim (tables.deleteKey oldest.key) (toFree - oldest.bytes)
          row) := by
  obtain ⟨oldestMember, free, _⟩ := Tables.oldestUnpinned_spec found
  by_cases same : row.key = oldest.key
  · have equality := tables.tiles.eq_of_key_eq member oldestMember same
    subst equality
    simp [windowVictim, free, priorBytes_oldest found, deficit]
  · cases pinned : row.pinned with
    | true => simp [windowVictim, pinned, same]
    | false =>
        simp only [windowVictim, pinned, Bool.not_false, Bool.true_and,
          same, decide_false, Bool.false_or,
          priorBytes_deleteKey found member pinned, decide_eq_decide]
        omega

theorem stores_deleteKey (sized : tables.Stores CachedTile.Sized)
    (key : TileKey) : (tables.deleteKey key).Stores CachedTile.Sized :=
  sized.deleteTiles _

/-- One round of the loop, as the window performs it. -/
theorem evictUnpinnedWithin_cons (sized : tables.Stores CachedTile.Sized)
    (found : tables.oldestUnpinned = some oldest) {total target : Int}
    (exceeds : target < total) :
    evictUnpinnedWithin tables total target =
      let rest := evictUnpinnedWithin (tables.deleteKey oldest.key)
        (total - oldest.bytes) target
      (oldest.bytes + rest.1, rest.2) := by
  obtain ⟨member, _, _⟩ := Tables.oldestUnpinned_spec found
  have deficit : total - target - oldest.bytes =
      total - oldest.bytes - target := by omega
  have short : 0 < total - target := by omega
  have selects := fun row => @windowVictim_cons tables oldest row found _ short
  rw [deficit] at selects
  rw [evictUnpinnedWithin_eq sized, evictUnpinnedWithin_eq
    (stores_deleteKey sized oldest.key), Tables.deleteTiles_congr selects,
    tables.sumBytes_congr selects, Tables.deleteTiles_or,
    Tables.sumBytes_or_key member]
  rfl

/-- The window `DELETE` frees and removes what the loop does. -/
theorem evictUnpinnedWithin_eq_evictOneByOne
    (sized : tables.Stores CachedTile.Sized) (total target : Int) :
    evictUnpinnedWithin tables total target =
      evictOneByOne tables total target := by
  fun_induction evictOneByOne tables total target with
  | case1 tables total within => rw [evictUnpinnedWithin, if_pos within]
  | case2 tables total exceeds none =>
      have pinned := Tables.oldestUnpinned_eq_none.mp none
      have nothing : ∀ row ∈ tables.tiles.rows,
          windowVictim tables (total - target) row = false := by
        intro row member
        simp [windowVictim, pinned row member]
      rw [evictUnpinnedWithin_eq sized, tables.sumBytes_eq_zero nothing,
        Tables.deleteTiles_congr nothing, Tables.deleteTiles_false]
  | case3 tables total exceeds oldest found rest induction =>
      rw [evictUnpinnedWithin_cons sized found (not_le.mp exceeds),
        induction (stores_deleteKey sized oldest.key)]

/-! ## What the loop leaves -/

theorem evictOneByOne_pinned (total target : Int)
    (member : row ∈ tables.tiles.rows) (pinned : row.pinned = true) :
    row ∈ (evictOneByOne tables total target).2.tiles.rows := by
  fun_induction evictOneByOne tables total target with
  | case1 tables total within => exact member
  | case2 tables total exceeds none => exact member
  | case3 tables total exceeds oldest found rest induction =>
      apply induction
      obtain ⟨oldestMember, free, _⟩ := Tables.oldestUnpinned_spec found
      apply Tables.mem_deleteTiles.mpr
      refine ⟨member, decide_eq_false ?_⟩
      intro same
      have equality := tables.tiles.eq_of_key_eq member oldestMember same
      rw [equality, free] at pinned
      contradiction

/-- The freed bytes are those of the removed rows. -/
theorem evictOneByOne_freed (total target : Int) :
    (evictOneByOne tables total target).1 =
      tables.totalSum -
        (evictOneByOne tables total target).2.totalSum := by
  fun_induction evictOneByOne tables total target with
  | case1 tables total within => simp
  | case2 tables total exceeds none => simp
  | case3 tables total exceeds oldest found rest induction =>
      have removed := Tables.sumBytes_or_key
        (Tables.oldestUnpinned_spec found).1 fun _ => true
      simp only [Bool.or_true] at removed
      change oldest.bytes + rest.1 = tables.totalSum - rest.2.totalSum
      have freed : rest.1 = (tables.deleteKey oldest.key).totalSum -
        rest.2.totalSum := induction
      unfold Tables.totalSum at *
      omega

/-- The loop ends at the target or without an unpinned row. -/
theorem evictOneByOne_ends (total target : Int) :
    total - (evictOneByOne tables total target).1 ≤ target ∨
      ∀ row ∈ (evictOneByOne tables total target).2.tiles.rows,
        row.pinned = true := by
  fun_induction evictOneByOne tables total target with
  | case1 tables total within => exact .inl (by omega)
  | case2 tables total exceeds none =>
      exact .inr (Tables.oldestUnpinned_eq_none.mp none)
  | case3 tables total exceeds oldest found rest induction =>
      change total - (oldest.bytes + rest.1) ≤ target ∨ _
      rcases induction with within | pinned
      · have same : total - oldest.bytes - rest.1 ≤ target := within
        exact .inl (by omega)
      · exact .inr pinned

theorem evictionTarget_le (cap : Int) : evictionTarget cap ≤ cap := by
  unfold evictionTarget evictionHysteresisBytes
  split <;> omega

/-- After an eviction the total is within the cap, or nothing which may be
evicted is left. -/
theorem evictUnpinnedWithin_ends (sized : tables.Stores CachedTile.Sized)
    (total cap : Int) :
    let evicted := evictUnpinnedWithin tables total (evictionTarget cap)
    total - evicted.1 ≤ cap ∨
      ∀ row ∈ evicted.2.tiles.rows, row.pinned = true := by
  have least := evictionTarget_le cap
  simp only [evictUnpinnedWithin_eq_evictOneByOne sized]
  have ends := @evictOneByOne_ends tables total (evictionTarget cap)
  rcases ends with within | pinned
  · exact .inl (by omega)
  · exact .inr pinned

theorem evictTo_ends {cache : TileCache}
    (sized : cache.tables.Stores CachedTile.Sized) (cap : Int) :
    (cache.evictTo cap).totalBytes ≤ cap ∨
      ∀ row ∈ (cache.evictTo cap).tables.tiles.rows, row.pinned = true := by
  unfold evictTo
  split
  · next within => exact .inl within
  · exact evictUnpinnedWithin_ends sized cache.totalBytes cap

end TileCache

/-- The window `DELETE` is the loop which deletes the oldest unpinned row
while the total exceeds the target: it frees and removes the same, keeps every
pinned row and returns the removed bytes.  After `evict_to` the total is exact,
and it is within the cap unless every row left is pinned. -/
theorem evictUnpinnedWithin_oneByOne {cache : TileCache}
    (exact : cache.totalBytes = cache.tables.totalSum)
    (sized : cache.tables.Stores CachedTile.Sized) (target cap : Int) :
    let evicted :=
      TileCache.evictUnpinnedWithin cache.tables cache.totalBytes target
    let after := cache.evictTo cap
    evicted = evictOneByOne cache.tables cache.totalBytes target ∧
      (∀ row ∈ cache.tables.tiles.rows, row.pinned = true →
        row ∈ evicted.2.tiles.rows) ∧
      evicted.1 = cache.tables.totalSum - evicted.2.totalSum ∧
      after.totalBytes = after.tables.totalSum ∧
      (after.tables.totalSum ≤ cap ∨
        ∀ row ∈ after.tables.tiles.rows, row.pinned = true) := by
  have same := TileCache.evictUnpinnedWithin_eq_evictOneByOne sized
    cache.totalBytes target
  have total : (cache.evictTo cap).totalBytes =
      (cache.evictTo cap).tables.totalSum := by
    unfold TileCache.evictTo
    split
    · exact exact
    · have freed := @TileCache.evictOneByOne_freed cache.tables
        cache.totalBytes (evictionTarget cap)
      simp only [TileCache.evictUnpinnedWithin_eq_evictOneByOne sized]
      omega
  refine ⟨same, ?_, ?_, total, ?_⟩
  · intro row member pinned
    rw [same]
    exact TileCache.evictOneByOne_pinned _ _ member pinned
  · rw [same]
    exact TileCache.evictOneByOne_freed _ _
  · rw [← total]
    exact TileCache.evictTo_ends sized cap

/-- A pinned row, then two rows of one age, the first of them without bytes,
and a later one. -/
def agedCalls : List CacheOp :=
  [.putManyPinned ⟨none, 0⟩ [⟨⟨"osm", 1, 0, 0⟩, sampleTile 30⟩] 100 100
      (some "harbour") 4,
    .put ⟨none, 0⟩ ⟨"osm", 1, 1, 0⟩ (sampleTile 0) false 5,
    .put ⟨none, 0⟩ ⟨"osm", 1, 0, 1⟩ (sampleTile 40) false 5,
    .put ⟨none, 0⟩ ⟨"osm", 1, 1, 1⟩ (sampleTile 20) false 6]

def agedCache : TileCache :=
  agedCalls.foldl CacheOp.apply (TileCache.opened false Tables.empty)

theorem sized_agedCache : agedCache.tables.Stores CachedTile.Sized := by
  have all : agedCache.tables.tiles.rows.all fun row =>
      decide (0 ≤ row.tile.bytes) := by decide
  intro row member
  have bytes : 0 ≤ row.tile.bytes :=
    of_decide_eq_true (List.all_eq_true.mp all row member)
  exact bytes

theorem evictUnpinnedWithin_oneByOne_agedCache :
    TileCache.evictUnpinnedWithin agedCache.tables agedCache.totalBytes 50 =
        evictOneByOne agedCache.tables agedCache.totalBytes 50 ∧
      agedCache.totalBytes = 90 ∧
      (TileCache.evictUnpinnedWithin agedCache.tables 90 50).1 = 40 := by
  have total : agedCache.totalBytes = agedCache.tables.totalSum := by decide
  exact ⟨(evictUnpinnedWithin_oneByOne total sized_agedCache 50 50).1,
    by decide, by decide⟩

end ChartLocker.Cache
