import ChartLocker.Cache.Aggregates

/-!
# What a call writes

Each call of the cache is a sequence of table steps of seven kinds.  The
theorem `tables_apply` says so once for all the methods, so that an invariant
of the tables is proved by one lemma for each kind of step.
-/

namespace ChartLocker.Cache

open Library

inductive TableStep where
  | put (key : TileKey) (tile : CachedTile) (pinned : Bool) (now : Int)
  | insertMember (regionId : Option String) (row : WarmRow) (now : Int)
  | pinMember (regionId : Option String) (key : TileKey)
  | touch (key : TileKey) (now : Int)
  | deleteUnpinned (drop : TileRow → Bool)
  | dropRegions (select : String → Bool)
  | replaceRegion (staging target : String)

namespace Tables

/-- The optional membership of a pinned tile. -/
def joinOption (tables : Tables) (regionId : Option String)
    (key : TileKey) : Tables :=
  match regionId with
  | some id => tables.joinTile id key
  | none => tables

@[simp] theorem row_joinOption (tables : Tables) (regionId : Option String)
    (key wanted : TileKey) :
    (tables.joinOption regionId key).row wanted = tables.row wanted := by
  cases regionId <;> rfl

theorem mem_joinOption {tables : Tables} {regionId : Option String}
    {id : String} {key other : TileKey} :
    ⟨id, other⟩ ∈ (tables.joinOption regionId key).regionTiles ↔
      (regionId = some id ∧ other = key) ∨
        ⟨id, other⟩ ∈ tables.regionTiles := by
  cases regionId with
  | none => simp [joinOption]
  | some region => simp [joinOption, mem_joinTile, eq_comm]

end Tables

namespace TableStep

def apply (tables : Tables) : TableStep → Tables
  | .put key tile pinned now =>
      tables.replaceTile key tile now (pinned || tables.isPinned key)
  | .insertMember regionId row now =>
      (tables.replaceTile row.key row.tile now true).joinOption regionId
        row.key
  | .pinMember regionId key =>
      if (tables.row key).isSome then
        (tables.setPinned (fun row => decide (row.key = key))
          true).joinOption regionId key
      else
        tables
  | .touch key now => tables.touchTile key now
  | .deleteUnpinned drop =>
      tables.deleteTiles fun row => !row.pinned && drop row
  | .dropRegions select => (tables.dropRegions select).demoteUnreferenced
  | .replaceRegion staging target =>
      TileCache.replaceRegion tables staging target

end TableStep

/-- The steps which a call may perform. -/
def CacheOp.Performs : CacheOp → TableStep → Prop
  | .put _ key tile pinned now, step => step = .put key tile pinned now
  | .touch key now, step => step = .touch key now
  | .putManyPinned _ rows _ _ regionId now, step =>
      (∃ row ∈ rows, step = .insertMember regionId row now) ∨
        ∃ drop, step = .deleteUnpinned drop
  | .pinIfFreshCapped key _ _ _ _ regionId, step =>
      step = .pinMember regionId key
  | .pinForRegion key _ regionId, step => step = .pinMember regionId key
  | .deleteRegion regionId, step =>
      step = .dropRegions fun id => id == regionId
  | .promoteStagedRegions replacements _ _ _, step =>
      ∃ replacement ∈ replacements,
        step = .replaceRegion replacement.1 replacement.2
  | .cleanupAbandonedStaging, step =>
      step = .dropRegions fun id => startsWith id stagingRegionPrefix
  | .evictTo _, step => ∃ drop, step = .deleteUnpinned drop
  | .sweepChunk _, step => ∃ drop, step = .deleteUnpinned drop
  | .clearChunk, step => ∃ drop, step = .deleteUnpinned drop
  | .realRegionPinnedBytes, _ => False

/-- The tables after some steps. -/
def performed (tables : Tables) (steps : List TableStep) : Tables :=
  steps.foldl TableStep.apply tables

@[simp] theorem performed_nil (tables : Tables) :
    performed tables [] = tables :=
  rfl

@[simp] theorem performed_cons (tables : Tables) (step : TableStep)
    (rest : List TableStep) :
    performed tables (step :: rest) = performed (step.apply tables) rest :=
  rfl

theorem performed_append (tables : Tables) (first second : List TableStep) :
    performed tables (first ++ second) =
      performed (performed tables first) second :=
  List.foldl_append

/-! ## The methods as steps -/

theorem evictUnpinnedWithin_performed (tables : Tables)
    (currentTotal target : Int) :
    ∃ steps, (TileCache.evictUnpinnedWithin tables currentTotal target).2 =
        performed tables steps ∧
      ∀ step ∈ steps, ∃ drop, step = .deleteUnpinned drop := by
  unfold TileCache.evictUnpinnedWithin
  split
  · exact ⟨[], rfl, by simp⟩
  · refine ⟨[.deleteUnpinned fun row =>
      decide (TileCache.priorBytes tables row < currentTotal - target)],
      rfl, ?_⟩
    intro step member
    exact ⟨_, List.mem_singleton.mp member⟩

theorem deleteUnpinnedChunk_performed (cache : TileCache)
    {select : TileRow → Bool} (order : TileRow → TileRow → Bool)
    (unpinned : ∀ row, select row = true → row.pinned = false) :
    ∃ steps, (cache.deleteUnpinnedChunk (TileCache.chunkRowids cache.tables
        select order)).2.2.tables = performed cache.tables steps ∧
      ∀ step ∈ steps, ∃ drop, step = .deleteUnpinned drop := by
  refine ⟨[.deleteUnpinned fun row => decide (row.rowid ∈
    TileCache.chunkRowids cache.tables select order)], ?_, ?_⟩
  · simp only [performed_cons, performed_nil, TableStep.apply,
      TileCache.deleteUnpinnedChunk]
    apply Tables.deleteTiles_congr
    intro row member
    cases pinned : row.pinned with
    | false => simp
    | true =>
        by_contra chosen
        have selected := TileCache.select_of_mem_chunkRowids member
          (by simpa [pinned] using chosen)
        rw [unpinned row selected] at pinned
        contradiction
  · intro step member
    exact ⟨_, List.mem_singleton.mp member⟩

theorem putRows_performed (budget cap pinnedBase categoryBase : Int)
    (regionId : Option String) (now : Int) (rows : List WarmRow)
    (progress : TileCache.PutProgress) :
    ∃ taken left, rows = taken ++ left ∧
      (TileCache.putRows budget cap pinnedBase categoryBase regionId now rows
        progress).tables =
        performed progress.tables
          (taken.map fun row => .insertMember regionId row now) ∧
      (TileCache.putRows budget cap pinnedBase categoryBase regionId now rows
        progress).capped = (progress.capped || !left.isEmpty) := by
  obtain ⟨taken, left, split, same⟩ := TileCache.putRows_eq_foldl budget cap
    pinnedBase categoryBase regionId now rows progress
  refine ⟨taken, left, split, ?_, by rw [same]⟩
  rw [same]
  clear same split
  induction taken generalizing progress with
  | nil => rfl
  | cons row taken induction =>
      simp only [List.foldl_cons, List.map_cons, performed_cons]
      rw [induction]
      cases regionId <;> rfl

theorem pinLocked_performed (cache : TileCache) {key : TileKey}
    {row : TileRow} (stored : cache.tables.row key = some row)
    (regionId : Option String) (wasPinned : Bool) (bytes : Int) :
    (cache.pinLocked key regionId wasPinned bytes).tables =
      performed cache.tables [.pinMember regionId key] := by
  simp only [performed_cons, performed_nil, TableStep.apply, stored,
    Option.isSome_some, if_true]
  cases regionId <;> rfl

theorem replaceRegions_performed (replacements : List (String × String))
    (tables : Tables) :
    TileCache.replaceRegions replacements tables =
      performed tables (replacements.map fun replacement =>
        .replaceRegion replacement.1 replacement.2) := by
  induction replacements generalizing tables with
  | nil => rfl
  | cons replacement rest induction =>
      simp only [TileCache.replaceRegions, List.map_cons, performed_cons]
      rw [induction]
      rfl

/-- A batch is refused whole for lack of disk space, or a first part of it is
inserted before unpinned rows are evicted. -/
theorem putManyPinned_performed (cache : TileCache) (disk : DiskSpace)
    (rows : List WarmRow) (budget cap : Int) (regionId : Option String)
    (now : Int) :
    cache.putManyPinned disk rows budget cap regionId now =
        (.diskPressure, cache) ∨
      ∃ taken left evictions, rows = taken ++ left ∧
        (cache.putManyPinned disk rows budget cap regionId now).2.tables =
          performed cache.tables
            ((taken.map fun row => .insertMember regionId row now) ++
              evictions) ∧
        (∀ step ∈ evictions, ∃ drop, step = .deleteUnpinned drop) ∧
        (cache.putManyPinned disk rows budget cap regionId now).1.capped =
          !left.isEmpty := by
  simp only [TileCache.putManyPinned]
  split
  · exact .inl rfl
  · right
    obtain ⟨taken, left, batch, inserted, capped⟩ := putRows_performed budget
      cap cache.pinnedBytes (cache.tables.categoryBytes regionId)
      regionId now rows ⟨cache.tables, 0, 0, 0, 0, 0, false⟩
    generalize TileCache.putRows budget cap cache.pinnedBytes
      (cache.tables.categoryBytes regionId) regionId now rows
      ⟨cache.tables, 0, 0, 0, 0, 0, false⟩ = final at inserted capped ⊢
    dsimp only at inserted capped ⊢
    split
    · obtain ⟨evictions, evicted, kinds⟩ :=
        evictUnpinnedWithin_performed final.tables
          (cache.totalBytes + final.added) (evictionTarget cap)
      refine ⟨taken, left, evictions, batch, ?_, kinds, capped⟩
      rw [performed_append, ← inserted]
      exact evicted
    · refine ⟨taken, left, [], batch, ?_, by simp, capped⟩
      rw [List.append_nil]
      exact inserted

/-- A call changes the tables by steps which it may perform. -/
theorem tables_apply (op : CacheOp) (cache : TileCache) :
    ∃ steps, (op.apply cache).tables = performed cache.tables steps ∧
      ∀ step ∈ steps, op.Performs step := by
  cases op with
  | put disk key tile pinned now =>
      simp only [CacheOp.apply, TileCache.put]
      split
      · exact ⟨[], rfl, by simp⟩
      · refine ⟨[.put key tile pinned now], ?_, ?_⟩
        · simp only [performed_cons, performed_nil, TableStep.apply,
            Tables.isPinned]
          split <;> rfl
        · simp [CacheOp.Performs]
  | touch key now =>
      exact ⟨[.touch key now], rfl, by simp [CacheOp.Performs]⟩
  | putManyPinned disk rows budget cap regionId now =>
      rcases putManyPinned_performed cache disk rows budget cap regionId now
        with refused | ⟨taken, left, evictions, batch, written, kinds, _⟩
      · exact ⟨[], by simp [CacheOp.apply, refused], by simp⟩
      · refine ⟨_, written, ?_⟩
        intro step chosen
        rcases List.mem_append.mp chosen with insertion | eviction
        · obtain ⟨row, member, rfl⟩ := List.mem_map.mp insertion
          exact .inl ⟨row, batch ▸ List.mem_append_left left member, rfl⟩
        · exact .inr (kinds step eviction)
  | pinIfFreshCapped key now freshSecs negativeTtlSecs budgets regionId =>
      simp only [CacheOp.apply, TileCache.pinIfFreshCapped]
      cases stored : cache.tables.row key with
      | none => exact ⟨[], rfl, by simp⟩
      | some row =>
          dsimp only
          split
          · exact ⟨[], rfl, by simp⟩
          · split
            · exact ⟨[], rfl, by simp⟩
            · split
              · exact ⟨[], rfl, by simp⟩
              · exact ⟨[.pinMember regionId key],
                  pinLocked_performed cache stored regionId _ _,
                  by simp [CacheOp.Performs]⟩
  | pinForRegion key budget regionId =>
      simp only [CacheOp.apply, TileCache.pinForRegion]
      cases stored : cache.tables.row key with
      | none => exact ⟨[], rfl, by simp⟩
      | some row =>
          dsimp only
          split
          · exact ⟨[], rfl, by simp⟩
          · exact ⟨[.pinMember regionId key],
              pinLocked_performed cache stored regionId _ _,
              by simp [CacheOp.Performs]⟩
  | deleteRegion regionId =>
      exact ⟨[.dropRegions fun id => id == regionId], rfl,
        by simp [CacheOp.Performs]⟩
  | promoteStagedRegions replacements realBudget positionBudget cap =>
      simp only [CacheOp.apply, TileCache.promoteStagedRegions]
      split
      · exact ⟨[], rfl, by simp⟩
      · refine ⟨_, replaceRegions_performed replacements cache.tables, ?_⟩
        intro step chosen
        obtain ⟨replacement, member, rfl⟩ := List.mem_map.mp chosen
        exact ⟨replacement, member, rfl⟩
  | evictTo capBytes =>
      simp only [CacheOp.apply, TileCache.evictTo]
      split
      · exact ⟨[], rfl, by simp⟩
      · exact evictUnpinnedWithin_performed cache.tables cache.totalBytes
          (evictionTarget capBytes)
  | cleanupAbandonedStaging =>
      exact ⟨[.dropRegions fun id => startsWith id stagingRegionPrefix], rfl,
        by simp [CacheOp.Performs]⟩
  | sweepChunk cutoff =>
      apply deleteUnpinnedChunk_performed
      intro row selected
      simp only [Bool.and_eq_true, Bool.not_eq_true'] at selected
      exact selected.1
  | clearChunk =>
      apply deleteUnpinnedChunk_performed
      intro row selected
      simpa using selected
  | realRegionPinnedBytes =>
      refine ⟨[], ?_, by simp⟩
      simp only [CacheOp.apply, TileCache.realRegionPinnedBytes]
      split <;> rfl

theorem performed_preserves {motive : Tables → Prop}
    {steps : List TableStep}
    (kept : ∀ tables, ∀ step ∈ steps, motive tables →
      motive (step.apply tables))
    {tables : Tables} (starts : motive tables) :
    motive (performed tables steps) := by
  induction steps generalizing tables with
  | nil => exact starts
  | cons step rest induction =>
      exact induction
        (fun other later member =>
          kept other later (List.mem_cons_of_mem step member))
        (kept tables step List.mem_cons_self starts)

/-- What every step of a call keeps, the call keeps. -/
theorem CacheOp.preserves {motive : Tables → Prop} {op : CacheOp}
    (kept : ∀ tables step, op.Performs step → motive tables →
      motive (step.apply tables))
    {cache : TileCache} (starts : motive cache.tables) :
    motive (op.apply cache).tables := by
  obtain ⟨steps, same, performs⟩ := tables_apply op cache
  rw [same]
  exact performed_preserves
    (fun tables step member => kept tables step (performs step member)) starts

end ChartLocker.Cache
