import ChartLocker.Cache.Pins

/-!
# Promotion of staged regions

`promote_staged_regions` performs its replacements one after the other inside
a transaction.  With distinct region ids the order does not matter: the
memberships afterwards are given by one formula over the memberships before,
and a tile loses its pin exactly when it loses its last membership.
-/

namespace ChartLocker.Cache

open Library TileCache

/-- The region ids of a list of replacements, staging ids first. -/
def replacementIds (replacements : List (String × String)) : List String :=
  replacements.map Prod.fst ++ replacements.map Prod.snd

theorem replacementIds_cons_nodup {staging target : String}
    {rest : List (String × String)}
    (distinct : (replacementIds ((staging, target) :: rest)).Nodup) :
    staging ≠ target ∧ (replacementIds rest).Nodup ∧
      staging ∉ replacementIds rest ∧ target ∉ replacementIds rest := by
  simp only [replacementIds, List.map_cons, List.cons_append,
    List.nodup_cons, List.mem_append, List.mem_cons,
    List.nodup_middle] at distinct ⊢
  tauto

theorem mem_replacementIds {replacements : List (String × String)}
    {id : String} :
    id ∈ replacementIds replacements ↔
      ∃ replacement ∈ replacements,
        id = replacement.1 ∨ id = replacement.2 := by
  simp only [replacementIds, List.mem_append, List.mem_map]
  constructor
  · rintro (⟨pair, member, rfl⟩ | ⟨pair, member, rfl⟩)
    · exact ⟨pair, member, .inl rfl⟩
    · exact ⟨pair, member, .inr rfl⟩
  · rintro ⟨pair, member, rfl | rfl⟩
    · exact .inl ⟨pair, member, rfl⟩
    · exact .inr ⟨pair, member, rfl⟩

section Replacements

variable {tables : Tables} {replacements : List (String × String)}

theorem joinsPinned_replaceRegions (linked : tables.JoinsPinned) :
    (replaceRegions replacements tables).JoinsPinned := by
  rw [replaceRegions_performed]
  exact performed_preserves (motive := Tables.JoinsPinned)
    (fun _ step _ before => before.apply step) linked

/-- The memberships after all replacements. -/
theorem mem_replaceRegions (distinct : (replacementIds replacements).Nodup)
    {id : String} {key : TileKey} :
    ⟨id, key⟩ ∈ (replaceRegions replacements tables).regionTiles ↔
      (∃ replacement ∈ replacements, id = replacement.2 ∧
        ⟨replacement.1, key⟩ ∈ tables.regionTiles) ∨
      (id ∉ replacementIds replacements ∧
        ⟨id, key⟩ ∈ tables.regionTiles) := by
  induction replacements generalizing tables with
  | nil => simp [replaceRegions, replacementIds]
  | cons replacement rest induction =>
      obtain ⟨staging, target⟩ := replacement
      obtain ⟨different, later, stagingFresh, targetFresh⟩ :=
        replacementIds_cons_nodup distinct
      have untouched : ∀ pair ∈ rest, ∀ other : TileKey,
          ⟨pair.1, other⟩ ∈
            (replaceRegion tables staging target).regionTiles ↔
          ⟨pair.1, other⟩ ∈ tables.regionTiles := by
        intro pair member other
        have pairMember : pair.1 ∈ replacementIds rest :=
          mem_replacementIds.mpr ⟨pair, member, .inl rfl⟩
        have notTarget : pair.1 ≠ target :=
          fun same => targetFresh (same ▸ pairMember)
        have notStaging : pair.1 ≠ staging :=
          fun same => stagingFresh (same ▸ pairMember)
        simp [Tables.mem_replaceRegion, notTarget, notStaging]
      simp only [replaceRegions, induction later]
      have ids : id ∉ replacementIds ((staging, target) :: rest) ↔
          id ≠ staging ∧ id ≠ target ∧ id ∉ replacementIds rest := by
        simp only [mem_replacementIds, List.mem_cons, exists_eq_or_imp,
          not_or, and_assoc, ne_eq]
      rw [ids, Tables.mem_replaceRegion]
      simp only [List.mem_cons, exists_eq_or_imp]
      have rests : (∃ pair ∈ rest, id = pair.2 ∧ ⟨pair.1, key⟩ ∈
            (replaceRegion tables staging target).regionTiles) ↔
          ∃ pair ∈ rest, id = pair.2 ∧
            ⟨pair.1, key⟩ ∈ tables.regionTiles := by
        refine exists_congr fun pair => and_congr_right fun member => ?_
        rw [untouched pair member]
      rw [rests]
      by_cases fresh : id = target
      · subst fresh
        simp [targetFresh, different, or_comm]
      · simp only [fresh, false_and, or_false, false_or]
        refine or_congr Iff.rfl ⟨?_, ?_⟩
        · rintro ⟨outside, joined, _, other⟩
          exact ⟨⟨other, fresh, outside⟩, joined⟩
        · rintro ⟨⟨other, _, outside⟩, joined⟩
          exact ⟨outside, joined, fresh, other⟩

/-- Replacements move memberships: they neither invent nor lose one, apart
from those of the targets. -/
theorem joined_replaceRegions (distinct : (replacementIds replacements).Nodup)
    {key : TileKey} {id : String}
    (joined : ⟨id, key⟩ ∈ tables.regionTiles)
    (untargeted : id ∉ replacements.map Prod.snd) :
    ∃ other, ⟨other, key⟩ ∈
      (replaceRegions replacements tables).regionTiles := by
  by_cases staged : id ∈ replacements.map Prod.fst
  · obtain ⟨pair, member, rfl⟩ := List.mem_map.mp staged
    exact ⟨pair.2, (mem_replaceRegions distinct).mpr
      (.inl ⟨pair, member, rfl, joined⟩)⟩
  · exact ⟨id, (mem_replaceRegions distinct).mpr
      (.inr ⟨by simp [replacementIds, staged, untargeted], joined⟩)⟩

theorem unjoined_replaceRegions
    (distinct : (replacementIds replacements).Nodup) {key : TileKey}
    (joined : ∃ id, ⟨id, key⟩ ∈
      (replaceRegions replacements tables).regionTiles) :
    ∃ id, ⟨id, key⟩ ∈ tables.regionTiles := by
  obtain ⟨id, member⟩ := joined
  rcases (mem_replaceRegions distinct).mp member with
    ⟨pair, _, _, before⟩ | ⟨_, before⟩
  · exact ⟨_, before⟩
  · exact ⟨id, before⟩

/-- A tile keeps its pin unless a target was its last region. -/
theorem isPinned_replaceRegions (linked : tables.JoinsPinned)
    (distinct : (replacementIds replacements).Nodup) {key : TileKey} :
    (replaceRegions replacements tables).isPinned key = true ↔
      tables.isPinned key = true ∧
        ((∃ replacement ∈ replacements,
          ⟨replacement.2, key⟩ ∈ tables.regionTiles) →
          ∃ id, ⟨id, key⟩ ∈
            (replaceRegions replacements tables).regionTiles) := by
  induction replacements generalizing tables with
  | nil => simp [replaceRegions]
  | cons replacement rest induction =>
      obtain ⟨staging, target⟩ := replacement
      obtain ⟨different, later, stagingFresh, targetFresh⟩ :=
        replacementIds_cons_nodup distinct
      have middleLinked :
          (replaceRegion tables staging target).JoinsPinned :=
        linked.apply (.replaceRegion staging target)
      have targets : ∀ pair ∈ rest,
          ⟨pair.2, key⟩ ∈
            (replaceRegion tables staging target).regionTiles ↔
          ⟨pair.2, key⟩ ∈ tables.regionTiles := by
        intro pair member
        have pairMember : pair.2 ∈ replacementIds rest :=
          mem_replacementIds.mpr ⟨pair, member, .inr rfl⟩
        have notTarget : pair.2 ≠ target :=
          fun same => targetFresh (same ▸ pairMember)
        have notStaging : pair.2 ≠ staging :=
          fun same => stagingFresh (same ▸ pairMember)
        simp [Tables.mem_replaceRegion, notTarget, notStaging]
      simp only [replaceRegions]
      rw [induction middleLinked later, Tables.isPinned_replaceRegion linked]
      simp only [List.mem_cons, exists_eq_or_imp]
      constructor
      · rintro ⟨⟨pinned, kept⟩, keptLater⟩
        refine ⟨pinned, ?_⟩
        rintro (joined | ⟨pair, member, joined⟩)
        · obtain ⟨id, middle⟩ := kept joined
          by_cases targeted : id ∈ rest.map Prod.snd
          · obtain ⟨pair, member, rfl⟩ := List.mem_map.mp targeted
            exact keptLater ⟨pair, member, middle⟩
          · exact joined_replaceRegions later middle targeted
        · exact keptLater ⟨pair, member, (targets pair member).mpr joined⟩
      · rintro ⟨pinned, kept⟩
        refine ⟨⟨pinned, fun joined => ?_⟩, ?_⟩
        · exact unjoined_replaceRegions later (kept (.inl joined))
        · rintro ⟨pair, member, joined⟩
          exact kept (.inr ⟨pair, member, (targets pair member).mp joined⟩)

/-- What a promotion does not write: the key, the rowid and the payload. -/
theorem row_replaceRegion (staging target : String) (key : TileKey) :
    ((replaceRegion tables staging target).row key).map
        (TileRow.withPinned false) =
      (tables.row key).map (TileRow.withPinned false) := by
  simp only [replaceRegion, Tables.row_setPinned, Tables.row_renameRegion,
    Tables.row_dropRegions, Option.map_map]
  cases tables.row key with
  | none => rfl
  | some row =>
      simp only [Option.map_some, Function.comp_apply, Option.some.injEq]
      split <;> split <;> rfl

theorem row_replaceRegions (key : TileKey) :
    ((replaceRegions replacements tables).row key).map
        (TileRow.withPinned false) =
      (tables.row key).map (TileRow.withPinned false) := by
  induction replacements generalizing tables with
  | nil => rfl
  | cons replacement rest induction =>
      exact induction.trans
        (row_replaceRegion replacement.1 replacement.2 key)

theorem get_replaceRegions (key : TileKey) :
    (replaceRegions replacements tables).get key = tables.get key := by
  have unpinned := congrArg (Option.map TileRow.tile)
    (@row_replaceRegions tables replacements key)
  rw [Option.map_map, Option.map_map] at unpinned
  exact unpinned

theorem mem_target_replaceRegions
    (distinct : (replacementIds replacements).Nodup)
    {staging target : String} (member : (staging, target) ∈ replacements)
    {key : TileKey} :
    ⟨target, key⟩ ∈ (replaceRegions replacements tables).regionTiles ↔
      ⟨staging, key⟩ ∈ tables.regionTiles := by
  have targets : (replacements.map Prod.snd).Nodup :=
    (List.nodup_append.mp distinct).2.1
  rw [mem_replaceRegions distinct]
  constructor
  · rintro (⟨pair, other, same, joined⟩ | ⟨outside, _⟩)
    · obtain rfl : pair = (staging, target) :=
        List.inj_on_of_nodup_map targets other member same.symm
      exact joined
    · exact absurd (mem_replacementIds.mpr ⟨_, member, .inr rfl⟩) outside
  · intro joined
    exact .inl ⟨_, member, rfl, joined⟩

theorem not_mem_staging_replaceRegions
    (distinct : (replacementIds replacements).Nodup)
    {staging target : String} (member : (staging, target) ∈ replacements)
    {key : TileKey} :
    ⟨staging, key⟩ ∉ (replaceRegions replacements tables).regionTiles := by
  rw [mem_replaceRegions distinct]
  rintro (⟨pair, other, same, _⟩ | ⟨outside, _⟩)
  · have disjoint := (List.nodup_append.mp distinct).2.2
    exact disjoint staging (List.mem_map.mpr ⟨_, member, rfl⟩)
      pair.2 (List.mem_map.mpr ⟨pair, other, rfl⟩) same
  · exact outside (mem_replacementIds.mpr ⟨_, member, .inl rfl⟩)

theorem mem_other_replaceRegions
    (distinct : (replacementIds replacements).Nodup) {id : String}
    (unstaged : id ∉ replacements.map Prod.fst)
    (untargeted : id ∉ replacements.map Prod.snd) {key : TileKey} :
    ⟨id, key⟩ ∈ (replaceRegions replacements tables).regionTiles ↔
      ⟨id, key⟩ ∈ tables.regionTiles := by
  have outside : id ∉ replacementIds replacements := by
    simp [replacementIds, unstaged, untargeted]
  rw [mem_replaceRegions distinct]
  constructor
  · rintro (⟨pair, other, rfl, _⟩ | ⟨_, joined⟩)
    · exact absurd (List.mem_map.mpr ⟨pair, other, rfl⟩) untargeted
    · exact joined
  · exact fun joined => .inr ⟨outside, joined⟩

/-- The tiles which a promotion unpins. -/
theorem unpinned_replaceRegions (linked : tables.JoinsPinned)
    (distinct : (replacementIds replacements).Nodup) {key : TileKey} :
    (tables.isPinned key = true ∧
        (replaceRegions replacements tables).isPinned key = false) ↔
      (∃ target ∈ replacements.map Prod.snd,
        ⟨target, key⟩ ∈ tables.regionTiles) ∧
      ∀ id, ⟨id, key⟩ ∉
        (replaceRegions replacements tables).regionTiles := by
  have targets : (∃ target ∈ replacements.map Prod.snd,
      ⟨target, key⟩ ∈ tables.regionTiles) ↔
      ∃ replacement ∈ replacements,
        ⟨replacement.2, key⟩ ∈ tables.regionTiles := by
    simp only [List.mem_map, exists_exists_and_eq_and]
  rw [← Bool.not_eq_true, isPinned_replaceRegions linked distinct, targets]
  constructor
  · rintro ⟨pinned, demoted⟩
    have lost := not_and.mp demoted pinned
    obtain ⟨targeted, unjoined⟩ := Classical.not_imp.mp lost
    exact ⟨targeted, fun id joined => unjoined ⟨id, joined⟩⟩
  · rintro ⟨targeted, unjoined⟩
    obtain ⟨pair, member, joined⟩ := targeted
    refine ⟨linked pair.2 key joined, ?_⟩
    rintro ⟨_, kept⟩
    obtain ⟨id, after⟩ := kept ⟨pair, member, joined⟩
    exact unjoined id after

end Replacements

theorem promoteStagedRegions_eq (cache : TileCache)
    (replacements : List (String × String))
    (realBudget positionBudget cap : Int) :
    let tables := replaceRegions replacements cache.tables
    cache.promoteStagedRegions replacements realBudget positionBudget cap =
      if tables.pinnedSum ≤ cap ∧
          tables.sumBytes (fun row => tables.memberWhere
            (fun id => !isPositionRegion id) row.key) ≤ realBudget ∧
          tables.sumBytes (fun row => tables.memberWhere
            isPositionRegion row.key) ≤ positionBudget then
        (true, { cache with
          tables := tables
          pinnedBytes := tables.pinnedSum
          regionsDirty := true })
      else
        (false, cache) := by
  have assets : isPositionRegion basemapAssetsRegionId = false := by decide
  have position : isPositionRegion positionWarmRegionId = true := by decide
  simp only [promoteStagedRegions, Tables.categoryBytes, assets, position,
    if_true, Bool.false_eq_true, if_false]
  split <;> split <;> first | rfl | omega

/-- A promotion replaces every target by its staging region or does
nothing. -/
theorem promoteStagedRegions_atomic {cache next : TileCache}
    {replacements : List (String × String)}
    {realBudget positionBudget cap : Int} {promoted : Bool}
    (linked : ∀ entry ∈ cache.tables.regionTiles,
      ∃ row ∈ cache.tables.tiles.rows,
        row.key = entry.key ∧ row.pinned = true)
    (distinct : (replacements.map Prod.fst ++
      replacements.map Prod.snd).Nodup)
    (called : cache.promoteStagedRegions replacements realBudget
      positionBudget cap = (promoted, next)) :
    (promoted = true →
      (∀ staging target, (staging, target) ∈ replacements → ∀ key,
        (⟨target, key⟩ ∈ next.tables.regionTiles ↔
          ⟨staging, key⟩ ∈ cache.tables.regionTiles) ∧
        ⟨staging, key⟩ ∉ next.tables.regionTiles) ∧
      (∀ id, id ∉ replacements.map Prod.fst →
        id ∉ replacements.map Prod.snd → ∀ key,
        (⟨id, key⟩ ∈ next.tables.regionTiles ↔
          ⟨id, key⟩ ∈ cache.tables.regionTiles)) ∧
      (∀ key, next.tables.get key = cache.tables.get key) ∧
      (∀ key,
        (cache.tables.isPinned key = true ∧
            next.tables.isPinned key = false) ↔
          (∃ target ∈ replacements.map Prod.snd,
            ⟨target, key⟩ ∈ cache.tables.regionTiles) ∧
          ∀ id, ⟨id, key⟩ ∉ next.tables.regionTiles) ∧
      next.tables.sumBytes (fun row => row.pinned) ≤ cap ∧
      next.pinnedBytes = next.tables.sumBytes (fun row => row.pinned) ∧
      next.tables.sumBytes (fun row => next.tables.memberWhere
        (fun id => !isPositionRegion id) row.key) ≤ realBudget ∧
      next.tables.sumBytes (fun row => next.tables.memberWhere
        isPositionRegion row.key) ≤ positionBudget) ∧
    (promoted = false → next = cache) := by
  have joinsPinned : cache.tables.JoinsPinned := by
    intro id key joined
    obtain ⟨row, member, rowKey, pinned⟩ := linked _ joined
    exact Tables.isPinned_eq_true.mpr
      ⟨row, Tables.row_eq_some.mpr ⟨member, rowKey⟩, pinned⟩
  rw [promoteStagedRegions_eq] at called
  split at called
  · next budgets =>
    obtain ⟨rfl, rfl⟩ := Prod.mk.inj called
    refine ⟨fun _ => ⟨?_, ?_, ?_, ?_, budgets.1, rfl, budgets.2⟩, by simp⟩
    · intro staging target member key
      exact ⟨mem_target_replaceRegions distinct member,
        not_mem_staging_replaceRegions distinct member⟩
    · intro id unstaged untargeted key
      exact mem_other_replaceRegions distinct unstaged untargeted
    · exact get_replaceRegions
    · exact fun key => unpinned_replaceRegions joinsPinned distinct
  · obtain ⟨rfl, rfl⟩ := Prod.mk.inj called
    simp

/-- The saved region of `sampleCache` with a newer staged download of another
tile, promoted in its place. -/
def stagedCache : TileCache :=
  (CacheOp.pinForRegion ⟨"osm", 1, 1, 0⟩ 100
    (some "__warm_staging__warm-1-2")).apply sampleCache

theorem promoteStagedRegions_atomic_stagedCache :
    (stagedCache.promoteStagedRegions
        [("__warm_staging__warm-1-2", "harbour")] 100 100 100).1 = true ∧
      ⟨"harbour", ⟨"osm", 1, 1, 0⟩⟩ ∈
        (stagedCache.promoteStagedRegions
          [("__warm_staging__warm-1-2", "harbour")] 100 100
          100).2.tables.regionTiles := by
  have promoted : (stagedCache.promoteStagedRegions
      [("__warm_staging__warm-1-2", "harbour")] 100 100 100).1 = true := by
    decide
  have atomic := @promoteStagedRegions_atomic stagedCache _
    [("__warm_staging__warm-1-2", "harbour")] 100 100 100 _
    (by decide) (by decide) Prod.mk.eta.symm
  refine ⟨promoted, ?_⟩
  have replaced := (atomic.1 promoted).1 _ _ List.mem_cons_self
  exact (replaced ⟨"osm", 1, 1, 0⟩).1.mpr (by decide)

end ChartLocker.Cache
