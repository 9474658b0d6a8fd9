import ChartLocker.Cache.Promotion

/-!
# Where memberships come from

A membership after a call was there before the call, or the call names it.  A
batch which is not cut short joins all of its rows, and a pin which succeeds
joins its tile.
-/

namespace ChartLocker.Cache

open Library TileCache

/-- The memberships which a call may write. -/
def CacheOp.mayJoin (id : String) (key : TileKey) : CacheOp → Prop
  | .putManyPinned _ rows _ _ regionId _ =>
      regionId = some id ∧ ∃ row ∈ rows, row.key = key
  | .pinIfFreshCapped other _ _ _ _ regionId =>
      regionId = some id ∧ key = other
  | .pinForRegion other _ regionId => regionId = some id ∧ key = other
  | .promoteStagedRegions replacements _ _ _ =>
      id ∈ replacements.map Prod.snd
  | _ => False

theorem Tables.mem_pinMember_origin {tables : Tables}
    {regionId : Option String} {other key : TileKey} {id : String}
    (joined : ⟨id, key⟩ ∈
      (TableStep.apply tables (.pinMember regionId other)).regionTiles) :
    ⟨id, key⟩ ∈ tables.regionTiles ∨ (regionId = some id ∧ key = other) := by
  simp only [TableStep.apply] at joined
  split at joined
  · exact (mem_joinOption.mp joined).symm
  · exact .inl joined

/-- A step writes no membership which its call does not name. -/
theorem CacheOp.Performs.joinOrigin {op : CacheOp} {step : TableStep}
    (performs : op.Performs step) {tables : Tables} {id : String}
    {key : TileKey} (joined : ⟨id, key⟩ ∈ (step.apply tables).regionTiles) :
    ⟨id, key⟩ ∈ tables.regionTiles ∨ op.mayJoin id key := by
  cases op with
  | put => cases performs; exact .inl joined
  | touch => cases performs; exact .inl joined
  | putManyPinned =>
      rcases performs with ⟨row, member, rfl⟩ | ⟨_, rfl⟩
      · rcases Tables.mem_joinOption.mp joined with ⟨named, same⟩ | before
        · exact .inr ⟨named, row, member, same.symm⟩
        · exact .inl before
      · exact .inl joined
  | pinIfFreshCapped =>
      cases performs
      exact Tables.mem_pinMember_origin joined
  | pinForRegion =>
      cases performs
      exact Tables.mem_pinMember_origin joined
  | deleteRegion =>
      cases performs
      exact .inl (Tables.mem_dropStep.mp joined).1
  | promoteStagedRegions replacements =>
      obtain ⟨replacement, member, rfl⟩ := performs
      rcases Tables.mem_replaceRegion.mp joined with ⟨before, _⟩ | ⟨same, _⟩
      · exact .inl before
      · exact .inr (List.mem_map.mpr ⟨replacement, member, same.symm⟩)
  | evictTo => obtain ⟨_, rfl⟩ := performs; exact .inl joined
  | sweepChunk => obtain ⟨_, rfl⟩ := performs; exact .inl joined
  | clearChunk => obtain ⟨_, rfl⟩ := performs; exact .inl joined
  | cleanupAbandonedStaging =>
      cases performs
      exact .inl (Tables.mem_dropStep.mp joined).1
  | realRegionPinnedBytes => cases performs

theorem joined_origin {cache : TileCache} {op : CacheOp} {id : String}
    {key : TileKey}
    (joined : ⟨id, key⟩ ∈ (op.apply cache).tables.regionTiles) :
    ⟨id, key⟩ ∈ cache.tables.regionTiles ∨ op.mayJoin id key := by
  refine CacheOp.preserves
    (motive := fun tables => ⟨id, key⟩ ∈ tables.regionTiles →
      ⟨id, key⟩ ∈ cache.tables.regionTiles ∨ op.mayJoin id key)
    (fun tables step performs before after => ?_) .inl joined
  rcases performs.joinOrigin after with earlier | named
  · exact before earlier
  · exact .inr named

/-- Insertions join their rows, whatever is inserted or evicted after them. -/
theorem joined_of_insertMember {tables : Tables} {id : String}
    {taken : List WarmRow} {evictions : List TableStep} {now : Int}
    {row : WarmRow} (member : row ∈ taken)
    (kinds : ∀ step ∈ evictions, ∃ drop, step = .deleteUnpinned drop) :
    ⟨id, row.key⟩ ∈ (performed tables
      ((taken.map fun row => .insertMember (some id) row now) ++
        evictions)).regionTiles := by
  obtain ⟨first, second, rfl⟩ := List.append_of_mem member
  rw [List.map_append, List.map_cons, List.append_assoc, performed_append,
    List.cons_append, performed_cons]
  apply performed_preserves
    (motive := fun tables => ⟨id, row.key⟩ ∈ tables.regionTiles)
  · intro tables step chosen joined
    rcases List.mem_append.mp chosen with insertion | eviction
    · obtain ⟨other, _, rfl⟩ := List.mem_map.mp insertion
      exact Tables.mem_joinOption.mpr (.inr joined)
    · obtain ⟨drop, rfl⟩ := kinds step eviction
      exact joined
  · exact Tables.mem_joinOption.mpr (.inl ⟨rfl, rfl⟩)

theorem putManyPinned_joins {cache : TileCache} {disk : DiskSpace}
    {rows : List WarmRow} {budget cap : Int} {id : String} {now : Int}
    (whole : (cache.putManyPinned disk rows budget cap (some id) now).1.capped
      = false) {row : WarmRow} (member : row ∈ rows) :
    ⟨id, row.key⟩ ∈ (cache.putManyPinned disk rows budget cap (some id)
      now).2.tables.regionTiles := by
  rcases putManyPinned_performed cache disk rows budget cap (some id) now with
    refused | ⟨taken, left, evictions, batch, written, kinds, capped⟩
  · rw [refused] at whole
    cases whole
  · have nothing : left = [] := by simpa [capped] using whole
    rw [nothing, List.append_nil] at batch
    rw [written]
    exact joined_of_insertMember (batch ▸ member) kinds

theorem pinIfFreshCapped_joins {cache : TileCache} {key : TileKey}
    {now freshSecs negativeTtlSecs : Int} {budgets : PinBudgets}
    {id : String}
    (pinned : (cache.pinIfFreshCapped key now freshSecs negativeTtlSecs
      budgets (some id)).1 = .pinned) :
    ⟨id, key⟩ ∈ (cache.pinIfFreshCapped key now freshSecs negativeTtlSecs
      budgets (some id)).2.tables.regionTiles := by
  unfold pinIfFreshCapped at pinned ⊢
  split at pinned
  · cases pinned
  · repeat' split at pinned
    all_goals first | contradiction | skip
    next stale budget room =>
    simp only [stale, budget, room, if_false]
    exact Finset.mem_insert_self _ _

end ChartLocker.Cache
