import ChartLocker.Cache.Eviction

/-!
# The pinned batch

What `put_many_pinned` is for: it stores the longest first part of a batch
whose rows pass the physical and the category gate one after the other.  The
gates are stated over the sums of the tables, which the counters of the loop
follow.
-/

namespace ChartLocker.Cache

open Library TileCache

namespace Tables

/-- One row of a batch: the tile, pinned, and its membership. -/
def insertPinned (tables : Tables) (regionId : Option String) (now : Int)
    (row : WarmRow) : Tables :=
  (tables.replaceTile row.key row.tile now true).joinOption regionId row.key

def insertBatch (tables : Tables) (regionId : Option String) (now : Int)
    (rows : List WarmRow) : Tables :=
  rows.foldl (fun state row => state.insertPinned regionId now row) tables

/-- The regions which share the category of a region. -/
def categorySelect (regionId : String) : String → Bool :=
  if isPositionRegion regionId then
    isPositionRegion
  else
    fun other => !isPositionRegion other

theorem categorySelect_self (regionId : String) :
    categorySelect regionId regionId = true := by
  unfold categorySelect
  cases position : isPositionRegion regionId <;> simp [position]

variable {tables : Tables} {regionId : Option String} {now : Int}

theorem categoryBytes_some (id : String) :
    tables.categoryBytes (some id) = tables.sumBytes fun row =>
      tables.memberWhere (categorySelect id) row.key := by
  simp only [categoryBytes, categorySelect]
  split <;> rfl

theorem keyInCategory_some (id : String) (key : TileKey) :
    tables.keyInCategory key (some id) =
      tables.memberWhere (categorySelect id) key := by
  simp only [keyInCategory, categorySelect]
  split <;> rfl

theorem memberWhere_joinTile {select : String → Bool} {id : String}
    {key other : TileKey} (selected : select id = true) :
    (tables.joinTile id key).memberWhere select other =
      (decide (other = key) || tables.memberWhere select other) := by
  rw [Bool.eq_iff_iff]
  simp only [memberWhere_eq_true, mem_joinTile, Bool.or_eq_true,
    decide_eq_true_eq]
  constructor
  · rintro ⟨found, ⟨rfl, rfl⟩ | member, chosen⟩
    · exact .inl rfl
    · exact .inr ⟨found, member, chosen⟩
  · rintro (rfl | ⟨found, member, chosen⟩)
    · exact ⟨id, .inl ⟨rfl, rfl⟩, selected⟩
    · exact ⟨found, .inr member, chosen⟩

/-! ## One insertion -/

/-- What one insertion adds to the pinned bytes. -/
theorem pinnedSum_insertPinned (row : WarmRow) :
    (tables.insertPinned regionId now row).pinnedSum =
      tables.pinnedSum +
        (row.tile.bytes - if tables.isPinned row.key then
          (tables.row row.key).elim 0 TileRow.bytes else 0) := by
  have replaced := tables.pinnedSum_replaceTile row.key row.tile now true
  have same : (tables.insertPinned regionId now row).pinnedSum =
      (tables.replaceTile row.key row.tile now true).pinnedSum := by
    cases regionId <;> rfl
  rw [same, replaced]
  unfold isPinned
  simp only [if_true]
  omega

/-- A sum which counts the row of a key anyway, against one which may not. -/
theorem sumBytes_key_or (key : TileKey) (select : TileRow → Bool) :
    tables.sumBytes (fun row => decide (row.key = key) || select row) -
        (tables.row key).elim 0 (KeyedTable.weight
          (fun row => decide (row.key = key) || select row) TileRow.bytes) =
      tables.sumBytes select -
        (tables.row key).elim 0 (KeyedTable.weight select TileRow.bytes) := by
  have counted := tables.tiles.sumWhere_split
    (fun row => decide (row.key = key) || select row)
    (fun row => decide (row.key = key)) TileRow.bytes
  have chosen := tables.tiles.sumWhere_split select
    (fun row => decide (row.key = key)) TileRow.bytes
  rw [tables.tiles.sumWhere_and_key] at counted chosen
  have outside : tables.tiles.sumWhere (fun row =>
      (decide (row.key = key) || select row) && !decide (row.key = key))
        TileRow.bytes =
      tables.tiles.sumWhere (fun row =>
        select row && !decide (row.key = key)) TileRow.bytes := by
    apply KeyedTable.sumWhere_congr
    intro row _
    cases decide (row.key = key) <;> simp
  unfold sumBytes row at *
  omega

/-- What one insertion adds to its category. -/
theorem categoryBytes_insertPinned (row : WarmRow) :
    (tables.insertPinned regionId now row).categoryBytes regionId =
      tables.categoryBytes regionId +
        (row.tile.bytes - if tables.keyInCategory row.key regionId then
          (tables.row row.key).elim 0 TileRow.bytes else 0) := by
  cases regionId with
  | none => exact pinnedSum_insertPinned row
  | some id =>
      have joined : (tables.insertPinned (some id) now row).categoryBytes
          (some id) =
        (tables.replaceTile row.key row.tile now true).sumBytes fun other =>
          decide (other.key = row.key) ||
            tables.memberWhere (categorySelect id) other.key := by
        rw [categoryBytes_some]
        apply sumBytes_congr
        intro other _
        exact memberWhere_joinTile (categorySelect_self id)
      have swapped := tables.sumBytes_key_or row.key fun other =>
        tables.memberWhere (categorySelect id) other.key
      have own : (tables.row row.key).elim 0 (KeyedTable.weight
          (fun other => tables.memberWhere (categorySelect id) other.key)
            TileRow.bytes) =
          if tables.memberWhere (categorySelect id) row.key then
            (tables.row row.key).elim 0 TileRow.bytes else 0 := by
        cases stored : tables.row row.key with
        | none => simp
        | some found => simp [KeyedTable.weight, row_key stored]
      rw [joined, sumBytes_replaceTile, categoryBytes_some,
        keyInCategory_some]
      simp only [decide_true, Bool.true_or, if_true]
      omega

theorem row_insertPinned (row : WarmRow) (wanted : TileKey) :
    (tables.insertPinned regionId now row).row wanted =
      if wanted = row.key then
        some ⟨tables.nextRowid, row.key,
          { row.tile with lastAccess := now }, true⟩
      else
        tables.row wanted := by
  rw [insertPinned, row_joinOption, row_replaceTile]

theorem mem_insertPinned {row : WarmRow} {id : String} {key : TileKey} :
    ⟨id, key⟩ ∈ (tables.insertPinned regionId now row).regionTiles ↔
      (regionId = some id ∧ key = row.key) ∨
        ⟨id, key⟩ ∈ tables.regionTiles :=
  mem_joinOption

end Tables

/-! ## The gates -/

/-- A sum which a gate lets through: it does not grow, or stays within the
limit. -/
def Gated (before after limit : Int) : Prop :=
  after ≤ before ∨ after ≤ limit

/-- A row of the batch passes both gates. -/
structure Admits (budget cap : Int) (regionId : Option String) (now : Int)
    (tables : Tables) (row : WarmRow) : Prop where
  physical : Gated tables.pinnedSum
    (tables.insertPinned regionId now row).pinnedSum cap
  category : Gated (tables.categoryBytes regionId)
    ((tables.insertPinned regionId now row).categoryBytes regionId) budget

/-- The rows of a batch pass the gates one after the other, each over the
tables with the rows before it. -/
def Admissible (budget cap : Int) (regionId : Option String) (now : Int) :
    Tables → List WarmRow → Prop
  | _, [] => True
  | tables, row :: rows =>
      Admits budget cap regionId now tables row ∧
        Admissible budget cap regionId now
          (tables.insertPinned regionId now row) rows

/-- The longest first part of a batch whose rows pass the gates. -/
structure LongestAdmissible (budget cap : Int) (regionId : Option String)
    (now : Int) (tables : Tables) (rows taken : List WarmRow) : Prop where
  first : taken <+: rows
  admissible : Admissible budget cap regionId now tables taken
  longest : ∀ other, other <+: rows →
    Admissible budget cap regionId now tables other → other <+: taken

section Gates

variable {budget cap pinnedBase categoryBase : Int}
  {regionId : Option String} {now : Int} {tables : Tables}
  {row : WarmRow} {rows taken : List WarmRow}

theorem longestAdmissible_nil :
    LongestAdmissible budget cap regionId now tables [] [] :=
  ⟨List.prefix_rfl, trivial, fun _ first _ => first⟩

theorem longestAdmissible_refused
    (refused : ¬ Admits budget cap regionId now tables row) :
    LongestAdmissible budget cap regionId now tables (row :: rows) [] := by
  refine ⟨List.nil_prefix, trivial, ?_⟩
  intro other first admissible
  cases other with
  | nil => exact List.prefix_rfl
  | cons head rest =>
      obtain ⟨rfl, _⟩ := List.cons_prefix_cons.mp first
      exact absurd admissible.1 refused

theorem LongestAdmissible.cons
    (admits : Admits budget cap regionId now tables row)
    (longest : LongestAdmissible budget cap regionId now
      (tables.insertPinned regionId now row) rows taken) :
    LongestAdmissible budget cap regionId now tables (row :: rows)
      (row :: taken) := by
  refine ⟨List.cons_prefix_cons.mpr ⟨rfl, longest.first⟩,
    ⟨admits, longest.admissible⟩, ?_⟩
  intro other first admissible
  cases other with
  | nil => exact List.nil_prefix
  | cons head rest =>
      obtain ⟨rfl, rest⟩ := List.cons_prefix_cons.mp first
      exact List.cons_prefix_cons.mpr
        ⟨rfl, longest.longest _ rest admissible.2⟩

/-- The counters of the loop follow the sums of its tables. -/
structure Tracks (pinnedBase categoryBase : Int) (regionId : Option String)
    (progress : PutProgress) : Prop where
  pinned : progress.tables.pinnedSum = pinnedBase + progress.pinnedAdded
  category : progress.tables.categoryBytes regionId =
    categoryBase + progress.categoryAdded

variable {progress : PutProgress}

theorem tables_insertRow :
    (progress.insertRow regionId now row).tables =
      progress.tables.insertPinned regionId now row := by
  cases regionId <;> rfl

theorem pinnedSum_eq_pinDelta :
    (progress.tables.insertPinned regionId now row).pinnedSum =
      progress.tables.pinnedSum + progress.pinDelta row := by
  rw [Tables.pinnedSum_insertPinned]
  unfold PutProgress.pinDelta PutProgress.delta PutProgress.oldBytes
    Tables.isPinned
  split <;> simp

theorem categoryBytes_eq_categoryDelta :
    (progress.tables.insertPinned regionId now row).categoryBytes regionId =
      progress.tables.categoryBytes regionId +
        progress.categoryDelta regionId row := by
  rw [Tables.categoryBytes_insertPinned]
  unfold PutProgress.categoryDelta PutProgress.delta PutProgress.oldBytes
  split <;> simp

theorem Tracks.insertRow
    (tracks : Tracks pinnedBase categoryBase regionId progress) :
    Tracks pinnedBase categoryBase regionId
      (progress.insertRow regionId now row) := by
  have pinned := tracks.pinned
  have category := tracks.category
  constructor
  · rw [tables_insertRow, pinnedSum_eq_pinDelta]
    change _ = pinnedBase + (progress.pinnedAdded + progress.pinDelta row)
    omega
  · rw [tables_insertRow, categoryBytes_eq_categoryDelta]
    change _ = categoryBase + (progress.categoryAdded +
      progress.categoryDelta regionId row)
    omega

/-- The two `break` conditions are the gates. -/
theorem exceeds_eq_false
    (tracks : Tracks pinnedBase categoryBase regionId progress) :
    progress.exceeds budget cap pinnedBase categoryBase regionId row = false ↔
      Admits budget cap regionId now progress.tables row := by
  have pinned := tracks.pinned
  have category := tracks.category
  have physicalDelta := @pinnedSum_eq_pinDelta regionId now row progress
  have categoryDelta :=
    @categoryBytes_eq_categoryDelta regionId now row progress
  simp only [PutProgress.exceeds, Bool.or_eq_false_iff,
    Bool.and_eq_false_iff, decide_eq_false_iff_not]
  constructor
  · rintro ⟨physical, logical⟩
    refine ⟨?_, ?_⟩ <;> unfold Gated <;> omega
  · rintro ⟨physical, logical⟩
    unfold Gated at physical logical
    omega

/-- The loop inserts the longest admissible first part of its rows. -/
theorem putRows_longest
    (tracks : Tracks pinnedBase categoryBase regionId progress) :
    ∃ taken,
      LongestAdmissible budget cap regionId now progress.tables rows taken ∧
      (putRows budget cap pinnedBase categoryBase regionId now rows
        progress).tables =
          progress.tables.insertBatch regionId now taken ∧
      (putRows budget cap pinnedBase categoryBase regionId now rows
        progress).stored = progress.stored + taken.length ∧
      ((putRows budget cap pinnedBase categoryBase regionId now rows
        progress).capped = (progress.capped || decide (taken ≠ rows))) := by
  induction rows generalizing progress with
  | nil => exact ⟨[], longestAdmissible_nil, rfl, rfl, by simp [putRows]⟩
  | cons row rows induction =>
      simp only [putRows]
      split
      · next exceeds =>
        have refused : ¬ Admits budget cap regionId now progress.tables row :=
          fun admits => by
            rw [(exceeds_eq_false tracks).mpr admits] at exceeds
            contradiction
        exact ⟨[], longestAdmissible_refused refused, rfl, rfl, by simp⟩
      · next passes =>
        have admits : Admits budget cap regionId now progress.tables row :=
          (exceeds_eq_false tracks).mp (by simpa using passes)
        obtain ⟨taken, longest, tables, stored, capped⟩ :=
          induction tracks.insertRow
        rw [tables_insertRow] at longest tables
        refine ⟨row :: taken, longest.cons admits, tables, ?_, ?_⟩
        · rw [stored]
          simp only [PutProgress.insertRow, List.length_cons]
          omega
        · rw [capped]
          simp [PutProgress.insertRow]

/-! ## What a batch leaves -/

theorem pinnedSum_insertBatch
    (admissible : Admissible budget cap regionId now tables taken) :
    (tables.insertBatch regionId now taken).pinnedSum ≤
      max tables.pinnedSum cap := by
  induction taken generalizing tables with
  | nil => exact le_max_left _ _
  | cons row taken induction =>
      have rest := induction admissible.2
      have gate := admissible.1.physical
      unfold Gated at gate
      unfold Tables.insertBatch at *
      rw [List.foldl_cons]
      omega

theorem categoryBytes_insertBatch
    (admissible : Admissible budget cap regionId now tables taken) :
    (tables.insertBatch regionId now taken).categoryBytes regionId ≤
      max (tables.categoryBytes regionId) budget := by
  induction taken generalizing tables with
  | nil => exact le_max_left _ _
  | cons row taken induction =>
      have rest := induction admissible.2
      have gate := admissible.1.category
      unfold Gated at gate
      unfold Tables.insertBatch at *
      rw [List.foldl_cons]
      omega

theorem mem_insertBatch {id : String} {key : TileKey} :
    ⟨id, key⟩ ∈ (tables.insertBatch regionId now taken).regionTiles ↔
      ⟨id, key⟩ ∈ tables.regionTiles ∨
        (regionId = some id ∧ ∃ row ∈ taken, row.key = key) := by
  induction taken generalizing tables with
  | nil => simp [Tables.insertBatch]
  | cons row taken induction =>
      have rest := @induction (tables.insertPinned regionId now row)
      unfold Tables.insertBatch at *
      rw [List.foldl_cons, rest, Tables.mem_insertPinned]
      constructor
      · rintro ((⟨named, same⟩ | before) | ⟨named, later, member, same⟩)
        · exact .inr ⟨named, row, List.mem_cons_self, same.symm⟩
        · exact .inl before
        · exact .inr ⟨named, later, List.mem_cons_of_mem row member, same⟩
      · rintro (before | ⟨named, other, member, same⟩)
        · exact .inl (.inr before)
        · rcases List.mem_cons.mp member with rfl | later
          · exact .inl (.inl ⟨named, same.symm⟩)
          · exact .inr ⟨named, other, later, same⟩

/-- A key which the batch does not write keeps its row. -/
theorem row_insertBatch_other {key : TileKey}
    (others : ∀ row ∈ taken, row.key ≠ key) :
    (tables.insertBatch regionId now taken).row key = tables.row key := by
  induction taken generalizing tables with
  | nil => rfl
  | cons row taken induction =>
      have rest := @induction (tables.insertPinned regionId now row)
        fun later member => others later (List.mem_cons_of_mem row member)
      unfold Tables.insertBatch at *
      rw [List.foldl_cons, rest, Tables.row_insertPinned,
        if_neg (others row List.mem_cons_self).symm]

/-- The last row of the batch with a key is stored under it, pinned. -/
theorem row_insertBatch_last {first rest : List WarmRow}
    (batch : taken = first ++ row :: rest)
    (last : ∀ later ∈ rest, later.key ≠ row.key) :
    ∃ found, (tables.insertBatch regionId now taken).row row.key =
        some found ∧
      found.tile = { row.tile with lastAccess := now } ∧
      found.pinned = true := by
  subst batch
  have split : tables.insertBatch regionId now (first ++ row :: rest) =
      ((tables.insertBatch regionId now first).insertPinned regionId now
        row).insertBatch regionId now rest := by
    simp [Tables.insertBatch]
  rw [split, row_insertBatch_other last, Tables.row_insertPinned,
    if_pos rfl]
  exact ⟨_, rfl, rfl, rfl⟩

end Gates

/-- The tables after a batch against those before it: the last row of the
batch with a key is stored and pinned, pinned rows of other keys are
untouched, no other row appears, and the memberships are those from before
with those of the batch. -/
structure BatchStored (regionId : Option String) (now : Int)
    (before after : Tables) (taken : List WarmRow) : Prop where
  stored : ∀ first row rest, taken = first ++ row :: rest →
    (∀ later ∈ rest, later.key ≠ row.key) →
    ∃ found, after.row row.key = some found ∧
      found.tile = { row.tile with lastAccess := now } ∧
      found.pinned = true
  kept : ∀ key found, before.row key = some found → found.pinned = true →
    (∀ row ∈ taken, row.key ≠ key) → after.row key = some found
  only : ∀ key found, after.row key = some found →
    (∀ row ∈ taken, row.key ≠ key) → before.row key = some found
  joins : ∀ id key, ⟨id, key⟩ ∈ after.regionTiles ↔
    ⟨id, key⟩ ∈ before.regionTiles ∨
      (regionId = some id ∧ ∃ row ∈ taken, row.key = key)

theorem batchStored_insertBatch (regionId : Option String) (now : Int)
    (tables : Tables) (taken : List WarmRow) :
    BatchStored regionId now tables
      (tables.insertBatch regionId now taken) taken where
  stored _ _ _ batch last := row_insertBatch_last batch last
  kept _ _ found _ others := (row_insertBatch_other others).trans found
  only _ _ found others := (row_insertBatch_other others).symm.trans found
  joins _ _ := mem_insertBatch

/-- A deletion of unpinned rows takes nothing of a batch away. -/
theorem BatchStored.deleteTiles {regionId : Option String} {now : Int}
    {before after : Tables} {taken : List WarmRow}
    (stored : BatchStored regionId now before after taken)
    {drop : TileRow → Bool}
    (unpinned : ∀ row, drop row = true → row.pinned = false) :
    BatchStored regionId now before (after.deleteTiles drop) taken := by
  have remains : ∀ key found, after.row key = some found →
      found.pinned = true → (after.deleteTiles drop).row key =
        some found := by
    intro key found row pinned
    have kept : drop found = false := by
      cases dropped : drop found with
      | false => rfl
      | true => simp [unpinned found dropped] at pinned
    rw [Tables.row_deleteTiles, row]
    simp [Option.filter, kept]
  refine ⟨?_, ?_, ?_, stored.joins⟩
  · intro first row rest batch last
    obtain ⟨found, row, tile, pinned⟩ := stored.stored first row rest batch
      last
    exact ⟨found, remains _ _ row pinned, tile, pinned⟩
  · intro key found row pinned others
    exact remains key found (stored.kept key found row pinned others) pinned
  · intro key found row others
    rw [Tables.row_deleteTiles] at row
    exact stored.only key found (Option.filter_eq_some_iff.mp row).1 others

/-- A deletion of unpinned rows frees no more than it deletes. -/
theorem Tables.categoryBytes_deleteTiles {tables : Tables}
    (sized : tables.Stores CachedTile.Sized) (drop : TileRow → Bool)
    (regionId : Option String) :
    (tables.deleteTiles drop).categoryBytes regionId ≤
      tables.categoryBytes regionId := by
  have less : ∀ select : TileRow → Bool,
      (tables.deleteTiles drop).sumBytes select ≤ tables.sumBytes select := by
    intro select
    have removed : 0 ≤ tables.sumBytes fun row => select row && drop row :=
      KeyedTable.sumWhere_nonneg sized
    rw [sumBytes_deleteTiles]
    omega
  cases regionId with
  | none => exact less TileRow.pinned
  | some id =>
      rw [categoryBytes_some, categoryBytes_some]
      exact less _

theorem Tables.stores_insertBatch {tables : Tables}
    (sized : tables.Stores CachedTile.Sized) (regionId : Option String)
    (now : Int) {taken : List WarmRow}
    (rows : ∀ row ∈ taken, row.tile.Sized) :
    (tables.insertBatch regionId now taken).Stores CachedTile.Sized := by
  induction taken generalizing tables with
  | nil => exact sized
  | cons row taken induction =>
      apply induction
      · exact (sized.replaceTile timeless_sized
          (rows row List.mem_cons_self) row.key now true).joinOption _ _
      · exact fun later member => rows later (List.mem_cons_of_mem row member)

/-- The make-room pass is a deletion of unpinned rows, after which the total
is within the cap unless every row left is pinned. -/
theorem makeRoom_cases {tables : Tables}
    (sized : tables.Stores CachedTile.Sized) (total cap : Int) :
    let evicted :=
      if total > cap then
        evictUnpinnedWithin tables total (evictionTarget cap)
      else
        (0, tables)
    (∃ drop, evicted.2 = tables.deleteTiles drop ∧
      ∀ row, drop row = true → row.pinned = false) ∧
    (total - evicted.1 ≤ cap ∨
      ∀ row ∈ evicted.2.tiles.rows, row.pinned = true) := by
  dsimp only
  split
  · refine ⟨⟨_, congrArg Prod.snd (evictUnpinnedWithin_eq sized total _), ?_⟩,
      evictUnpinnedWithin_ends sized total cap⟩
    intro row victim
    simp only [windowVictim, Bool.and_eq_true, Bool.not_eq_true'] at victim
    exact victim.1
  · next within =>
    refine ⟨⟨fun _ => false, Tables.deleteTiles_false.symm, ?_⟩, .inl ?_⟩
    · intro row dropped
      contradiction
    · omega

/-- The method inserts the longest admissible first part, and then makes
room. -/
theorem putManyPinned_cases {cache : TileCache} (exact : Exact cache)
    (sized : cache.tables.Stores CachedTile.Sized) {disk : DiskSpace}
    {rows : List WarmRow} (batch : ∀ row ∈ rows, row.tile.Sized)
    (room : hasDiskHeadroom disk
      (batchPhysicalGrowth cache.tables rows (fun _ => none) 0) = true)
    (budget cap : Int) (regionId : Option String) (now : Int) :
    let result := cache.putManyPinned disk rows budget cap regionId now
    ∃ taken drop,
      LongestAdmissible budget cap regionId now cache.tables rows taken ∧
      result.1.stored = taken.length ∧
      result.1.capped = decide (taken ≠ rows) ∧
      result.2.tables =
        (cache.tables.insertBatch regionId now taken).deleteTiles drop ∧
      (∀ row, drop row = true → row.pinned = false) ∧
      (result.2.totalBytes ≤ cap ∨
        ∀ row ∈ result.2.tables.tiles.rows, row.pinned = true) := by
  let start : PutProgress := ⟨cache.tables, 0, 0, 0, 0, 0, false⟩
  have tracks : Tracks cache.pinnedBytes
      (cache.tables.categoryBytes regionId) regionId start := by
    constructor
    · change cache.tables.pinnedSum = cache.pinnedBytes + 0
      rw [exact.pinned, add_zero]
    · exact (add_zero _).symm
  obtain ⟨taken, longest, tables, stored, capped⟩ :=
    @putRows_longest budget cap _ _ regionId now rows start tracks
  have member : ∀ row ∈ taken, row.tile.Sized :=
    fun row taken => batch row (longest.first.subset taken)
  have insertedSized := cache.tables.stores_insertBatch sized regionId now
    member
  simp only [putManyPinned, room, Bool.true_eq_false, if_false]
  change ∃ taken drop, _ ∧ (putRows budget cap cache.pinnedBytes
    (cache.tables.categoryBytes regionId) regionId now rows start).stored = _ ∧
    _
  obtain ⟨⟨drop, deleted, unpinned⟩, ends⟩ := makeRoom_cases insertedSized
    (cache.totalBytes + (putRows budget cap cache.pinnedBytes
      (cache.tables.categoryBytes regionId) regionId now rows start).added)
    cap
  have counted : taken.length = start.stored + taken.length :=
    (Nat.zero_add _).symm
  have marked : decide (taken ≠ rows) =
      (start.capped || decide (taken ≠ rows)) :=
    (Bool.false_or _).symm
  refine ⟨taken, drop, longest, stored.trans counted.symm,
    capped.trans marked.symm, ?_, unpinned, ?_⟩
  · rw [← deleted, ← tables]
  · rw [← tables] at ends
    exact ends

/-- `put_many_pinned` with enough disk space stores the longest first part of
the batch whose rows pass both gates.  Its rows are then stored, pinned and
joined to the region, no row which was pinned is removed, and the sums stay
within the larger of their limit and their value before. -/
theorem putManyPinned_stores_longest {cache : TileCache} (exact : Exact cache)
    (sized : cache.tables.Stores CachedTile.Sized) {disk : DiskSpace}
    {rows : List WarmRow} (batch : ∀ row ∈ rows, row.tile.Sized)
    (room : hasDiskHeadroom disk
      (batchPhysicalGrowth cache.tables rows (fun _ => none) 0) = true)
    (budget cap : Int) (regionId : Option String) (now : Int) :
    let result := cache.putManyPinned disk rows budget cap regionId now
    let after := result.2
    Exact after ∧
    ∃ taken,
      LongestAdmissible budget cap regionId now cache.tables rows taken ∧
      result.1.stored = taken.length ∧
      result.1.capped = decide (taken ≠ rows) ∧
      BatchStored regionId now cache.tables after.tables taken ∧
      after.pinnedBytes ≤ max cache.pinnedBytes cap ∧
      after.tables.categoryBytes regionId ≤
        max (cache.tables.categoryBytes regionId) budget ∧
      after.totalBytes ≤ max cap after.pinnedBytes := by
  have kept := exact_putManyPinned exact disk rows budget cap regionId now
  obtain ⟨taken, drop, longest, stored, capped, tables, unpinned, ends⟩ :=
    putManyPinned_cases exact sized batch room budget cap regionId now
  have member : ∀ row ∈ taken, row.tile.Sized :=
    fun row taken => batch row (longest.first.subset taken)
  have insertedSized := cache.tables.stores_insertBatch sized regionId now
    member
  refine ⟨kept, taken, longest, stored, capped, ?_, ?_, ?_, ?_⟩
  · rw [tables]
    exact (batchStored_insertBatch regionId now cache.tables
      taken).deleteTiles unpinned
  · rw [kept.pinned, tables, exact.pinned]
    have survives : ((cache.tables.insertBatch regionId now
        taken).deleteTiles drop).pinnedSum =
        (cache.tables.insertBatch regionId now taken).pinnedSum :=
      Tables.sumBytes_deleteTiles_unpinned Tables.countsPinned_pinned
        fun row _ => unpinned row
    rw [survives]
    exact pinnedSum_insertBatch longest.admissible
  · rw [tables]
    exact (Tables.categoryBytes_deleteTiles insertedSized drop
      regionId).trans (categoryBytes_insertBatch longest.admissible)
  · rcases ends with within | pinned
    · exact le_max_of_le_left within
    · apply le_max_of_le_right
      rw [kept.total, kept.pinned]
      exact le_of_eq (Tables.sumBytes_congr _ fun row member =>
        (pinned row member).symm)

/-- A batch which replaces the oldest unpinned row twice, and whose last row
does not fit. -/
def agedBatch : List WarmRow :=
  [⟨⟨"osm", 1, 0, 1⟩, sampleTile 25⟩, ⟨⟨"osm", 1, 0, 1⟩, sampleTile 20⟩,
    ⟨⟨"osm", 1, 1, 1⟩, sampleTile 45⟩]

theorem putManyPinned_stores_longest_agedBatch :
    let result := agedCache.putManyPinned ⟨none, 0⟩ agedBatch 90 60
      (some "harbour") 9
    result.1.stored = 2 ∧ result.1.capped = true ∧
      ∃ taken, LongestAdmissible 90 60 (some "harbour") 9 agedCache.tables
          agedBatch taken ∧
        result.1.stored = taken.length := by
  have batch : ∀ row ∈ agedBatch, row.tile.Sized := by
    unfold CachedTile.Sized
    decide
  have exact : Exact agedCache :=
    exact_of_reachable ⟨_, agedCalls, ⟨false, Tables.empty, rfl⟩, rfl⟩
  obtain ⟨_, taken, longest, stored, _⟩ :=
    @putManyPinned_stores_longest agedCache exact sized_agedCache ⟨none, 0⟩
      agedBatch batch (by decide +kernel) 90 60 (some "harbour") 9
  exact ⟨by decide +kernel, by decide +kernel, taken, longest, stored⟩

end ChartLocker.Cache
