import ChartLocker.Cache.Steps

/-!
# Pins and region memberships

The pin flag of a tile and the membership rows of the regions are two records
of the same fact.  Every call keeps the direction on which eviction relies: a
joined tile is stored and pinned.  The calls which name a region keep the
other direction too, so that a cache which is filled through regions alone has
no pin without a region.
-/

namespace ChartLocker.Cache

open Library

namespace Tables

/-- Every membership row names a stored and pinned tile. -/
def JoinsPinned (tables : Tables) : Prop :=
  ∀ id key, ⟨id, key⟩ ∈ tables.regionTiles → tables.isPinned key = true

/-- Every pinned tile has a membership row. -/
def PinsJoined (tables : Tables) : Prop :=
  ∀ key, tables.isPinned key = true → ∃ id, ⟨id, key⟩ ∈ tables.regionTiles

variable {tables : Tables}

/-! ## Pins after a statement -/

theorem isPinned_replaceTile (key : TileKey) (tile : CachedTile) (now : Int)
    (pinned : Bool) (wanted : TileKey) :
    (tables.replaceTile key tile now pinned).isPinned wanted =
      if wanted = key then pinned else tables.isPinned wanted := by
  simp only [isPinned, row_replaceTile]
  split <;> rfl

theorem isPinned_deleteUnpinned (drop : TileRow → Bool) (wanted : TileKey) :
    (tables.deleteTiles fun row => !row.pinned && drop row).isPinned wanted =
      tables.isPinned wanted := by
  simp only [isPinned, row_deleteTiles]
  cases tables.row wanted with
  | none => rfl
  | some row =>
      cases pinned : row.pinned with
      | true => simp [Option.filter_some, pinned]
      | false =>
          cases dropped : drop row <;>
            simp [Option.filter_some, pinned, dropped]

theorem isPinned_touchTile (key : TileKey) (now : Int) (wanted : TileKey) :
    (tables.touchTile key now).isPinned wanted = tables.isPinned wanted := by
  simp only [isPinned, row_touchTile]
  cases tables.row wanted with
  | none => rfl
  | some row =>
      simp only [Option.map_some, Option.elim_some]
      split <;> rfl

theorem isPinned_promote (select : TileKey → Bool) {wanted : TileKey} :
    (tables.setPinned (fun row => select row.key) true).isPinned wanted =
        true ↔
      tables.isPinned wanted = true ∨
        ((tables.row wanted).isSome = true ∧ select wanted = true) := by
  simp only [isPinned, row_setPinned]
  cases stored : tables.row wanted with
  | none => simp
  | some row =>
      have rowKey := row_key stored
      cases chosen : select wanted <;>
        simp [rowKey, chosen, TileRow.withPinned]

theorem isPinned_demote (select : TileKey → Bool) {wanted : TileKey} :
    (tables.setPinned (fun row => row.pinned && select row.key)
        false).isPinned wanted = true ↔
      tables.isPinned wanted = true ∧ select wanted = false := by
  simp only [isPinned, row_setPinned]
  cases stored : tables.row wanted with
  | none => simp
  | some row =>
      have rowKey := row_key stored
      cases chosen : select wanted <;> cases pinned : row.pinned <;>
        simp [rowKey, chosen, pinned, TileRow.withPinned]

theorem isPinned_demoteUnreferenced {wanted : TileKey} :
    tables.demoteUnreferenced.isPinned wanted = true ↔
      tables.isPinned wanted = true ∧
        ∃ id, ⟨id, wanted⟩ ∈ tables.regionTiles := by
  refine (isPinned_demote fun key =>
    !tables.memberWhere (fun _ => true) key).trans (and_congr_right' ?_)
  simp [memberWhere_eq_true]

theorem isSome_row_of_isPinned {key : TileKey}
    (pinned : tables.isPinned key = true) :
    (tables.row key).isSome = true := by
  obtain ⟨row, stored, _⟩ := isPinned_eq_true.mp pinned
  simp [stored]

/-! ## One replacement of a promotion -/

section Replacement

open TileCache

variable {staging target : String}

theorem mem_replaceRegion {id : String} {key : TileKey} :
    ⟨id, key⟩ ∈ (replaceRegion tables staging target).regionTiles ↔
      (⟨id, key⟩ ∈ tables.regionTiles ∧ id ≠ target ∧ id ≠ staging) ∨
        (id = target ∧ staging ≠ target ∧
          ⟨staging, key⟩ ∈ tables.regionTiles) := by
  simp only [replaceRegion, regionTiles_setPinned, mem_renameRegion,
    mem_dropRegions, beq_eq_false_iff_ne]
  tauto

private theorem isPinned_replaceRegion_iff {key : TileKey} :
    (replaceRegion tables staging target).isPinned key = true ↔
      (tables.isPinned key = true ∧
        (⟨target, key⟩ ∈ tables.regionTiles →
          ∃ id, ⟨id, key⟩ ∈ tables.regionTiles ∧ id ≠ target)) ∨
      ((tables.row key).isSome = true ∧ staging ≠ target ∧
        ⟨staging, key⟩ ∈ tables.regionTiles) := by
  refine (isPinned_promote fun key => memberWhere _ (fun id => id == target)
    key).trans (or_congr ?_ ?_)
  · refine (isPinned_demote fun key =>
      tables.memberWhere (fun id => id == target) key &&
        !tables.memberWhere (fun id => id != target) key).trans
      (and_congr_right' ?_)
    rw [← Bool.not_eq_true, Bool.and_eq_true, Bool.not_eq_true',
      ← Bool.not_eq_true, memberWhere_eq_true, memberWhere_eq_true]
    simp
  · simp only [row_renameRegion, row_dropRegions, row_setPinned,
      Option.isSome_map, memberWhere_eq_true, mem_renameRegion,
      mem_dropRegions, regionTiles_setPinned, beq_iff_eq,
      beq_eq_false_iff_ne]
    simp [and_comm]

/-- A pinned tile stays pinned unless it loses its last membership with the
target region. -/
theorem isPinned_replaceRegion (linked : tables.JoinsPinned)
    {key : TileKey} :
    (replaceRegion tables staging target).isPinned key = true ↔
      tables.isPinned key = true ∧
        (⟨target, key⟩ ∈ tables.regionTiles →
          ∃ id, ⟨id, key⟩ ∈
            (replaceRegion tables staging target).regionTiles) := by
  rw [isPinned_replaceRegion_iff]
  simp only [mem_replaceRegion]
  constructor
  · rintro (⟨pinned, kept⟩ | ⟨_, different, staged⟩)
    · refine ⟨pinned, fun joined => ?_⟩
      obtain ⟨id, member, other⟩ := kept joined
      by_cases same : id = staging
      · exact ⟨target, .inr ⟨rfl, same ▸ other, same ▸ member⟩⟩
      · exact ⟨id, .inl ⟨member, other, same⟩⟩
    · exact ⟨linked staging key staged,
        fun _ => ⟨target, .inr ⟨rfl, different, staged⟩⟩⟩
  · rintro ⟨pinned, kept⟩
    by_cases joined : ⟨target, key⟩ ∈ tables.regionTiles
    · obtain ⟨id, ⟨member, other, _⟩ | ⟨_, different, staged⟩⟩ := kept joined
      · exact .inl ⟨pinned, fun _ => ⟨id, member, other⟩⟩
      · exact .inr ⟨isSome_row_of_isPinned pinned, different, staged⟩
    · exact .inl ⟨pinned, fun member => absurd member joined⟩

end Replacement

/-! ## The two directions -/

theorem joinsPinned_empty : empty.JoinsPinned := by
  intro id key member
  simp [empty] at member

theorem pinsJoined_empty : empty.PinsJoined := by
  intro key pinned
  simp [empty, isPinned, row, KeyedTable.lookup, KeyedTable.empty] at pinned

theorem JoinsPinned.apply (linked : tables.JoinsPinned) (step : TableStep) :
    (step.apply tables).JoinsPinned := by
  intro id key joined
  cases step with
  | put other tile pinned now =>
      have before := linked id key joined
      simp only [TableStep.apply, isPinned_replaceTile]
      split
      · next same => simp [← same, before]
      · exact before
  | insertMember regionId row now =>
      simp only [TableStep.apply, isPinned, row_joinOption]
      change (replaceTile _ _ _ _ _).isPinned key = true
      rw [isPinned_replaceTile]
      split
      · rfl
      · next different =>
        rcases mem_joinOption.mp joined with ⟨_, same⟩ | member
        · exact absurd same different
        · exact linked id key member
  | pinMember regionId other =>
      simp only [TableStep.apply] at joined ⊢
      split at joined
      · next stored =>
        rw [if_pos stored]
        simp only [isPinned, row_joinOption]
        refine (isPinned_promote fun key => decide (key = other)).mpr ?_
        rcases mem_joinOption.mp joined with ⟨_, rfl⟩ | member
        · exact .inr ⟨stored, by simp⟩
        · exact .inl (linked id key member)
      · next missing =>
        rw [if_neg missing]
        exact linked id key joined
  | touch other now =>
      exact (isPinned_touchTile other now key).trans (linked id key joined)
  | deleteUnpinned drop =>
      exact (isPinned_deleteUnpinned drop key).trans (linked id key joined)
  | dropRegions select =>
      obtain ⟨member, _⟩ := mem_dropRegions.mp joined
      exact isPinned_demoteUnreferenced.mpr
        ⟨linked id key member, id, joined⟩
  | replaceRegion staging target =>
      refine (isPinned_replaceRegion linked).mpr ⟨?_, fun _ => ⟨id, joined⟩⟩
      rcases mem_replaceRegion.mp joined with ⟨member, _⟩ | ⟨_, _, member⟩
      · exact linked id key member
      · exact linked staging key member

end Tables

/-- A step which pins nothing without a region. -/
def TableStep.Regional : TableStep → Prop
  | .put _ _ pinned _ => pinned = false
  | .insertMember regionId _ _ => regionId.isSome = true
  | .pinMember regionId _ => regionId.isSome = true
  | _ => True

/-- A call which pins nothing without a region. -/
def CacheOp.regional : CacheOp → Bool
  | .put _ _ _ pinned _ => !pinned
  | .putManyPinned _ _ _ _ regionId _ => regionId.isSome
  | .pinIfFreshCapped _ _ _ _ _ regionId => regionId.isSome
  | .pinForRegion _ _ regionId => regionId.isSome
  | _ => true

theorem CacheOp.Performs.regional {op : CacheOp} {step : TableStep}
    (performs : op.Performs step) (regional : op.regional = true) :
    step.Regional := by
  cases op with
  | put =>
      cases performs
      simpa [CacheOp.regional, TableStep.Regional] using regional
  | putManyPinned =>
      rcases performs with ⟨_, _, rfl⟩ | ⟨_, rfl⟩
      · exact regional
      · trivial
  | pinIfFreshCapped => cases performs; exact regional
  | pinForRegion => cases performs; exact regional
  | promoteStagedRegions => obtain ⟨_, _, rfl⟩ := performs; trivial
  | evictTo => obtain ⟨_, rfl⟩ := performs; trivial
  | sweepChunk => obtain ⟨_, rfl⟩ := performs; trivial
  | clearChunk => obtain ⟨_, rfl⟩ := performs; trivial
  | touch => cases performs; trivial
  | deleteRegion => cases performs; trivial
  | cleanupAbandonedStaging => cases performs; trivial
  | realRegionPinnedBytes => cases performs

namespace Tables

variable {tables : Tables}

theorem PinsJoined.apply (joined : tables.PinsJoined)
    (linked : tables.JoinsPinned) {step : TableStep}
    (regional : step.Regional) : (step.apply tables).PinsJoined := by
  intro key pinned
  cases step with
  | put other tile flag now =>
      cases regional
      simp only [TableStep.apply, isPinned_replaceTile, Bool.false_or]
        at pinned
      split at pinned
      · next same => exact joined key (same ▸ pinned)
      · exact joined key pinned
  | insertMember regionId row now =>
      obtain ⟨region, rfl⟩ := Option.isSome_iff_exists.mp regional
      simp only [TableStep.apply, isPinned, row_joinOption] at pinned
      change (replaceTile _ _ _ _ _).isPinned key = true at pinned
      rw [isPinned_replaceTile] at pinned
      split at pinned
      · next same => exact ⟨region, mem_joinOption.mpr (.inl ⟨rfl, same⟩)⟩
      · obtain ⟨id, member⟩ := joined key pinned
        exact ⟨id, mem_joinOption.mpr (.inr member)⟩
  | pinMember regionId other =>
      obtain ⟨region, rfl⟩ := Option.isSome_iff_exists.mp regional
      simp only [TableStep.apply] at pinned ⊢
      split at pinned
      · next stored =>
        rw [if_pos stored]
        simp only [isPinned, row_joinOption] at pinned
        rcases (isPinned_promote fun key => decide (key = other)).mp pinned
          with before | ⟨_, same⟩
        · obtain ⟨id, member⟩ := joined key before
          exact ⟨id, mem_joinOption.mpr (.inr member)⟩
        · exact ⟨region, mem_joinOption.mpr (.inl ⟨rfl, by simpa using same⟩)⟩
      · next missing =>
        rw [if_neg missing]
        exact joined key pinned
  | touch other now =>
      exact joined key ((isPinned_touchTile other now key).symm.trans pinned)
  | deleteUnpinned drop =>
      exact joined key ((isPinned_deleteUnpinned drop key).symm.trans pinned)
  | dropRegions select => exact (isPinned_demoteUnreferenced.mp pinned).2
  | replaceRegion staging target =>
      obtain ⟨before, kept⟩ := (isPinned_replaceRegion linked).mp pinned
      by_cases targeted : ⟨target, key⟩ ∈ tables.regionTiles
      · exact kept targeted
      · obtain ⟨id, member⟩ := joined key before
        have other : id ≠ target := fun same => targeted (same ▸ member)
        by_cases staged : id = staging
        · exact ⟨target, mem_replaceRegion.mpr
            (.inr ⟨rfl, staged ▸ other, staged ▸ member⟩)⟩
        · exact ⟨id, mem_replaceRegion.mpr (.inl ⟨member, other, staged⟩)⟩

end Tables

/-! ## Runs -/

/-- The calls which may take memberships away from a region. -/
def CacheOp.touchesRegion (regionId : String) : CacheOp → Bool
  | .deleteRegion id => id == regionId
  | .promoteStagedRegions replacements _ _ _ =>
      replacements.any fun replacement =>
        replacement.1 == regionId || replacement.2 == regionId
  | .cleanupAbandonedStaging => startsWith regionId stagingRegionPrefix
  | _ => false

theorem Tables.mem_pinMember {tables : Tables} {regionId : Option String}
    {other key : TileKey} {id : String}
    (joined : ⟨id, key⟩ ∈ tables.regionTiles) :
    ⟨id, key⟩ ∈
      (TableStep.apply tables (.pinMember regionId other)).regionTiles := by
  simp only [TableStep.apply]
  split
  · exact mem_joinOption.mpr (.inr joined)
  · exact joined

theorem Tables.mem_dropStep {tables : Tables} {select : String → Bool}
    {id : String} {key : TileKey} :
    ⟨id, key⟩ ∈ (TableStep.apply tables (.dropRegions select)).regionTiles ↔
      ⟨id, key⟩ ∈ tables.regionTiles ∧ select id = false :=
  mem_dropRegions

/-- A step leaves the memberships of the regions which its call does not
touch. -/
theorem CacheOp.Performs.keepsJoin {op : CacheOp} {step : TableStep}
    (performs : op.Performs step) {regionId : String}
    (untouched : op.touchesRegion regionId = false) {tables : Tables}
    {key : TileKey} (joined : ⟨regionId, key⟩ ∈ tables.regionTiles) :
    ⟨regionId, key⟩ ∈ (step.apply tables).regionTiles := by
  cases op with
  | put => cases performs; exact joined
  | touch => cases performs; exact joined
  | putManyPinned =>
      rcases performs with ⟨_, _, rfl⟩ | ⟨_, rfl⟩
      · exact Tables.mem_joinOption.mpr (.inr joined)
      · exact joined
  | pinIfFreshCapped => cases performs; exact Tables.mem_pinMember joined
  | pinForRegion => cases performs; exact Tables.mem_pinMember joined
  | deleteRegion id =>
      cases performs
      have other : id ≠ regionId := beq_eq_false_iff_ne.mp untouched
      exact Tables.mem_dropStep.mpr
        ⟨joined, beq_eq_false_iff_ne.mpr other.symm⟩
  | promoteStagedRegions replacements =>
      obtain ⟨replacement, member, rfl⟩ := performs
      have others := List.any_eq_false.mp untouched replacement member
      simp only [Bool.or_eq_true, beq_iff_eq, not_or] at others
      exact Tables.mem_replaceRegion.mpr
        (.inl ⟨joined, Ne.symm others.2, Ne.symm others.1⟩)
  | evictTo => obtain ⟨_, rfl⟩ := performs; exact joined
  | sweepChunk => obtain ⟨_, rfl⟩ := performs; exact joined
  | clearChunk => obtain ⟨_, rfl⟩ := performs; exact joined
  | cleanupAbandonedStaging =>
      cases performs
      refine Tables.mem_dropStep.mpr ⟨joined, ?_⟩
      simpa only [CacheOp.touchesRegion] using untouched
  | realRegionPinnedBytes => cases performs

theorem joined_apply {cache : TileCache} {op : CacheOp} {regionId : String}
    {key : TileKey} (untouched : op.touchesRegion regionId = false)
    (joined : ⟨regionId, key⟩ ∈ cache.tables.regionTiles) :
    ⟨regionId, key⟩ ∈ (op.apply cache).tables.regionTiles :=
  CacheOp.preserves
    (motive := fun tables => ⟨regionId, key⟩ ∈ tables.regionTiles)
    (fun _ _ performs => performs.keepsJoin untouched) joined

theorem joinsPinned_apply {cache : TileCache}
    (linked : cache.tables.JoinsPinned) (op : CacheOp) :
    (op.apply cache).tables.JoinsPinned :=
  CacheOp.preserves (motive := Tables.JoinsPinned)
    (fun _ step _ before => before.apply step) linked

/-- A membership names a stored and pinned tile, and a pinned tile has a
membership. -/
structure Tables.Linked (tables : Tables) : Prop where
  joinsPinned : tables.JoinsPinned
  pinsJoined : tables.PinsJoined

theorem linked_apply {cache : TileCache} (linked : cache.tables.Linked)
    {op : CacheOp} (regional : op.regional = true) :
    (op.apply cache).tables.Linked :=
  CacheOp.preserves (motive := Tables.Linked)
    (fun _ step performs before =>
      ⟨before.joinsPinned.apply step,
        before.pinsJoined.apply before.joinsPinned
          (performs.regional regional)⟩)
    linked

theorem cacheMachine_step {cache next : TileCache} {op : CacheOp} :
    cacheMachine.step cache op = some next ↔ op.apply cache = next := by
  simp [cacheMachine]

theorem cacheMachine_exec (cache : TileCache) (ops : List CacheOp) :
    cacheMachine.exec cache ops = some (ops.foldl CacheOp.apply cache) := by
  induction ops generalizing cache with
  | nil => rfl
  | cons op rest induction => exact induction (op.apply cache)

theorem linked_exec {cache final : TileCache} {ops : List CacheOp}
    (regional : ∀ op ∈ ops, op.regional = true)
    (run : cacheMachine.exec cache ops = some final)
    (linked : cache.tables.Linked) : final.tables.Linked := by
  induction ops generalizing cache with
  | nil => exact Option.some.inj run ▸ linked
  | cons op rest induction =>
      obtain ⟨next, stepped, later⟩ := Machine.exec_cons_eq_some.mp run
      have next_eq := cacheMachine_step.mp stepped
      exact induction
        (fun other member => regional other (List.mem_cons_of_mem op member))
        later (next_eq ▸ linked_apply linked (regional op List.mem_cons_self))

theorem linked_opened_empty (deferred : Bool) :
    (TileCache.opened deferred Tables.empty).tables.Linked := by
  have empty : Tables.empty.Linked :=
    ⟨Tables.joinsPinned_empty, Tables.pinsJoined_empty⟩
  cases deferred with
  | true => exact empty
  | false =>
      let step : TableStep :=
        .dropRegions fun id => startsWith id stagingRegionPrefix
      exact ⟨empty.joinsPinned.apply step,
        empty.pinsJoined.apply empty.joinsPinned (by trivial : step.Regional)⟩

theorem joined_exec {cache final : TileCache} {ops : List CacheOp}
    {regionId : String} {key : TileKey}
    (untouched : ∀ op ∈ ops, op.touchesRegion regionId = false)
    (run : cacheMachine.exec cache ops = some final)
    (joined : ⟨regionId, key⟩ ∈ cache.tables.regionTiles) :
    ⟨regionId, key⟩ ∈ final.tables.regionTiles := by
  induction ops generalizing cache with
  | nil => exact Option.some.inj run ▸ joined
  | cons op rest induction =>
      obtain ⟨next, stepped, later⟩ := Machine.exec_cons_eq_some.mp run
      have next_eq := cacheMachine_step.mp stepped
      exact induction
        (fun other member => untouched other (List.mem_cons_of_mem op member))
        later
        (next_eq ▸ joined_apply (untouched op List.mem_cons_self) joined)

theorem Tables.JoinsPinned.stored {tables : Tables}
    (linked : tables.JoinsPinned) {id : String} {key : TileKey}
    (joined : ⟨id, key⟩ ∈ tables.regionTiles) :
    ∃ row ∈ tables.tiles.rows, row.key = key ∧ row.pinned = true := by
  obtain ⟨row, stored, pinned⟩ := isPinned_eq_true.mp (linked id key joined)
  obtain ⟨member, rowKey⟩ := row_eq_some.mp stored
  exact ⟨row, member, rowKey, pinned⟩

/-- In a cache which is filled through regions, the pinned tiles are the
joined tiles.  A joined tile stays joined and stored as long as its region is
not touched, and it is gone only after a call which took away its last
membership, each of its regions being touched by that call. -/
theorem pinned_iff_joined {deferred : Bool} {ops : List CacheOp}
    {cache : TileCache} (regional : ∀ op ∈ ops, op.regional = true)
    (run : cacheMachine.exec (TileCache.opened deferred Tables.empty) ops =
      some cache) :
    (∀ row ∈ cache.tables.tiles.rows, row.pinned = true ↔
      ∃ entry ∈ cache.tables.regionTiles, entry.key = row.key) ∧
    (∀ entry ∈ cache.tables.regionTiles,
      ∃ row ∈ cache.tables.tiles.rows, row.key = entry.key) ∧
    ∀ later final regionId key,
      (∀ op ∈ later, op.regional = true) →
      cacheMachine.exec cache later = some final →
      ⟨regionId, key⟩ ∈ cache.tables.regionTiles →
      ((∀ op ∈ later, op.touchesRegion regionId = false) →
        ⟨regionId, key⟩ ∈ final.tables.regionTiles ∧
          ∃ row ∈ final.tables.tiles.rows, row.key = key) ∧
      ((∀ row ∈ final.tables.tiles.rows, row.key ≠ key) →
        ∃ before op after state next, later = before ++ op :: after ∧
          cacheMachine.exec cache before = some state ∧
          cacheMachine.step state op = some next ∧
          cacheMachine.exec next after = some final ∧
          (∃ id, ⟨id, key⟩ ∈ state.tables.regionTiles) ∧
          (∀ id, ⟨id, key⟩ ∈ state.tables.regionTiles →
            op.touchesRegion id = true) ∧
          ∀ id, ⟨id, key⟩ ∉ next.tables.regionTiles) := by
  have linked := linked_exec regional run (linked_opened_empty deferred)
  refine ⟨?_, ?_, ?_⟩
  · intro row member
    have stored : cache.tables.row row.key = some row :=
      Tables.row_eq_some.mpr ⟨member, rfl⟩
    have flag : cache.tables.isPinned row.key = row.pinned := by
      simp [Tables.isPinned, stored]
    constructor
    · intro pinned
      obtain ⟨id, joined⟩ := linked.pinsJoined row.key (flag.trans pinned)
      exact ⟨_, joined, rfl⟩
    · rintro ⟨⟨id, key⟩, joined, rfl⟩
      exact flag.symm.trans (linked.joinsPinned id row.key joined)
  · rintro ⟨id, key⟩ joined
    obtain ⟨row, member, same, _⟩ := linked.joinsPinned.stored joined
    exact ⟨row, member, same⟩
  · intro later final regionId key laterRegional laterRun joined
    have finalLinked := linked_exec laterRegional laterRun linked
    constructor
    · intro untouched
      have kept := joined_exec untouched laterRun joined
      obtain ⟨row, member, same, _⟩ := finalLinked.joinsPinned.stored kept
      exact ⟨kept, row, member, same⟩
    · intro gone
      have unjoined : ¬ ∃ id, ⟨id, key⟩ ∈ final.tables.regionTiles := by
        rintro ⟨id, member⟩
        obtain ⟨row, stored, same, _⟩ := finalLinked.joinsPinned.stored member
        exact gone row stored same
      obtain ⟨before, op, after, state, next, split, reach, stepped, rest,
        inside, outside⟩ := Machine.exec_leaves
          (fun state : TileCache => ∃ id,
            ⟨id, key⟩ ∈ state.tables.regionTiles)
          laterRun ⟨regionId, joined⟩ unjoined
      refine ⟨before, op, after, state, next, split, reach, stepped, rest,
        inside, ?_, fun id member => outside ⟨id, member⟩⟩
      intro id member
      by_contra spared
      have kept := joined_apply (by simpa using spared) member
      exact outside ⟨id, cacheMachine_step.mp stepped ▸ kept⟩

theorem pinned_iff_joined_sampleCache :
    ∃ entry ∈ sampleCache.tables.regionTiles,
      entry.key = ⟨"osm", 1, 0, 0⟩ := by
  have linked := @pinned_iff_joined false sampleCalls sampleCache
    (by decide) rfl
  let row : TileRow :=
    ⟨2, ⟨"osm", 1, 0, 0⟩, { sampleTile 20 with lastAccess := 5 }, true⟩
  have member : row ∈ sampleCache.tables.tiles.rows := by decide
  exact (linked.1 row member).mp rfl

end ChartLocker.Cache
