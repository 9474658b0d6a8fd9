import ChartLocker.Catalog.Geometry
import ChartLocker.Library.Sweep

/-!
# Exact covers

The output of `disjoint_ranges` is an exact cover of its input by disjoint
ranges, so that the tile count is the number of covered tiles and the
enumeration yields each of them once.
-/

namespace ChartLocker.Catalog

open Library

/-- A tile is in a range. -/
structure TileRange.Covers (range : TileRange) (z x y : Nat) : Prop where
  zoom : range.z = z
  left : range.x0 ≤ x
  right : x ≤ range.x1
  top : range.y0 ≤ y
  bottom : y ≤ range.y1

/-- What `tile_rect` gives: ordered corners in a grid of at most `2^24`
columns and rows. -/
structure TileRange.Bounded (range : TileRange) : Prop where
  columns : range.x0 ≤ range.x1
  rows : range.y0 ≤ range.y1
  right : range.x1 < 2 ^ 24
  bottom : range.y1 < 2 ^ 24

/-! ## Merged intervals -/

/-- A row is in an interval. -/
def Within (interval : Nat × Nat) (y : Nat) : Prop :=
  interval.1 ≤ y ∧ y ≤ interval.2

/-- Intervals which are not empty, not before the first one and sorted by
their start. -/
structure Ascending (start : Nat) (intervals : List (Nat × Nat)) : Prop where
  proper : ∀ interval ∈ intervals, interval.1 ≤ interval.2
  after : ∀ interval ∈ intervals, start ≤ interval.1
  sorted : intervals.Pairwise fun left right => left.1 ≤ right.1

/-- Merged intervals: not empty, and with a gap between them. -/
structure Separated (start : Nat) (intervals : List (Nat × Nat)) : Prop where
  proper : ∀ interval ∈ intervals, interval.1 ≤ interval.2
  after : ∀ interval ∈ intervals, start ≤ interval.1
  gaps : intervals.Pairwise fun left right => left.2 + 1 < right.1

theorem Ascending.tail {start : Nat} {interval : Nat × Nat}
    {rest : List (Nat × Nat)} (ascending : Ascending start (interval :: rest)) :
    interval.1 ≤ interval.2 ∧ start ≤ interval.1 ∧
      Ascending interval.1 rest := by
  obtain ⟨first, sorted⟩ := List.pairwise_cons.mp ascending.sorted
  exact ⟨ascending.proper _ List.mem_cons_self,
    ascending.after _ List.mem_cons_self,
    fun other member => ascending.proper other
      (List.mem_cons_of_mem interval member), first, sorted⟩

/-- The merge loop with an open interval. -/
theorem mergeIntervals_some {start finish : Nat} {rest : List (Nat × Nat)}
    (proper : start ≤ finish) (ascending : Ascending start rest) :
    Separated start (mergeIntervals (some (start, finish)) rest) ∧
      ∀ y, (∃ merged ∈ mergeIntervals (some (start, finish)) rest,
          Within merged y) ↔
        Within (start, finish) y ∨ ∃ interval ∈ rest, Within interval y := by
  induction rest generalizing start finish with
  | nil =>
      refine ⟨⟨?_, ?_, List.pairwise_singleton _ _⟩, ?_⟩
      · intro merged member
        cases List.mem_singleton.mp member
        exact proper
      · intro merged member
        cases List.mem_singleton.mp member
        exact le_rfl
      · intro y
        simp [mergeIntervals]
  | cons interval rest induction =>
      obtain ⟨ordered, after, later⟩ := ascending.tail
      unfold mergeIntervals
      split
      · next touches =>
        have later' : Ascending start rest :=
          ⟨later.proper, fun other member =>
            after.trans (later.after other member), later.sorted⟩
        obtain ⟨separated, covers⟩ :=
          induction (proper.trans (le_max_left finish interval.2)) later'
        refine ⟨separated, fun y => (covers y).trans ?_⟩
        have joined : Within (start, max finish interval.2) y ↔
            Within (start, finish) y ∨ Within interval y := by
          unfold Within
          dsimp only
          omega
        rw [joined, List.exists_mem_cons_iff, or_assoc]
      · next apart =>
        obtain ⟨separated, covers⟩ := induction ordered later
        refine ⟨⟨?_, ?_, ?_⟩, ?_⟩
        · intro merged member
          rcases List.mem_cons.mp member with rfl | inner
          · exact proper
          · exact separated.proper merged inner
        · intro merged member
          rcases List.mem_cons.mp member with rfl | inner
          · exact le_rfl
          · exact after.trans (separated.after merged inner)
        · refine List.pairwise_cons.mpr ⟨?_, separated.gaps⟩
          intro merged member
          have begins := separated.after merged member
          dsimp only
          omega
        · intro y
          rw [List.exists_mem_cons_iff, List.exists_mem_cons_iff, covers y]

theorem mergeIntervals_none {intervals : List (Nat × Nat)}
    (ascending : Ascending 0 intervals) :
    Separated 0 (mergeIntervals none intervals) ∧
      ∀ y, (∃ merged ∈ mergeIntervals none intervals, Within merged y) ↔
        ∃ interval ∈ intervals, Within interval y := by
  cases intervals with
  | nil => exact ⟨⟨by simp [mergeIntervals], by simp [mergeIntervals],
      List.Pairwise.nil⟩, by simp [mergeIntervals]⟩
  | cons interval rest =>
      obtain ⟨ordered, _, later⟩ := ascending.tail
      obtain ⟨separated, covers⟩ := mergeIntervals_some ordered later
      refine ⟨⟨separated.proper, fun _ _ => Nat.zero_le _,
        separated.gaps⟩, fun y => ?_⟩
      rw [List.exists_mem_cons_iff]
      exact covers y

/-! ## Slabs -/

/-- No tile is in both ranges. -/
def TileRange.Apart (left right : TileRange) : Prop :=
  ∀ z x y, left.Covers z x y → ¬ right.Covers z x y

theorem TileRange.Apart.symm {left right : TileRange}
    (apart : left.Apart right) : right.Apart left :=
  fun z x y covers other => apart z x y other covers

/-- The boundaries of a zoom. -/
def boundariesOf (zoomRanges : List TileRange) : List Nat :=
  sortedDedup (zoomRanges.flatMap fun range => [range.x0, range.x1 + 1])

theorem sorted_boundariesOf (zoomRanges : List TileRange) :
    (boundariesOf zoomRanges).Pairwise (· < ·) :=
  Sweep.sorted_destutter _

theorem mem_boundariesOf {zoomRanges : List TileRange} {boundary : Nat} :
    boundary ∈ boundariesOf zoomRanges ↔
      ∃ range ∈ zoomRanges, boundary = range.x0 ∨ boundary = range.x1 + 1 := by
  refine Iff.trans Sweep.mem_destutter ?_
  simp [List.mem_flatMap]

section Slab

variable {z : Nat} {zoomRanges : List TileRange} {slab : Nat × Nat}

/-- A range of the zoom spans a slab, or has no column in it. -/
theorem spans_iff (member : slab ∈ Sweep.windows (boundariesOf zoomRanges))
    {range : TileRange} (rangeMember : range ∈ zoomRanges) {x : Nat}
    (inside : slab.1 ≤ x ∧ x < slab.2) :
    (range.x0 ≤ slab.1 ∧ slab.2 - 1 ≤ range.x1) ↔
      (range.x0 ≤ x ∧ x ≤ range.x1) := by
  obtain ⟨_, gap⟩ := Sweep.window_gap (sorted_boundariesOf zoomRanges) member
  have left := gap range.x0 (mem_boundariesOf.mpr
    ⟨range, rangeMember, .inl rfl⟩)
  have right := gap (range.x1 + 1) (mem_boundariesOf.mpr
    ⟨range, rangeMember, .inr rfl⟩)
  omega

/-- The intervals which are merged in a slab. -/
def slabIntervals (zoomRanges : List TileRange) (slab : Nat × Nat) :
    List (Nat × Nat) :=
  ((zoomRanges.filter fun range =>
    decide (range.x0 ≤ slab.1) && decide (range.x1 ≥ slab.2 - 1)).map
      fun range => (range.y0, range.y1)).insertionSort
        fun left right => left.1 ≤ right.1

theorem mem_slabIntervals {interval : Nat × Nat} :
    interval ∈ slabIntervals zoomRanges slab ↔
      ∃ range ∈ zoomRanges, (range.x0 ≤ slab.1 ∧ slab.2 - 1 ≤ range.x1) ∧
        (range.y0, range.y1) = interval := by
  unfold slabIntervals
  simp [List.mem_insertionSort, and_assoc]

theorem ascending_slabIntervals
    (bounded : ∀ range ∈ zoomRanges, range.Bounded) :
    Ascending 0 (slabIntervals zoomRanges slab) where
  proper := by
    intro interval member
    obtain ⟨range, rangeMember, _, rfl⟩ := mem_slabIntervals.mp member
    exact (bounded range rangeMember).rows
  after _ _ := Nat.zero_le _
  sorted := by
    have total : Std.Total fun left right : Nat × Nat => left.1 ≤ right.1 :=
      ⟨fun left right => le_total left.1 right.1⟩
    have transitive : IsTrans (Nat × Nat) fun left right =>
        left.1 ≤ right.1 := ⟨fun _ _ _ => le_trans⟩
    exact List.pairwise_insertionSort _ _

theorem slabRanges_eq (step : slab.1 < slab.2) :
    slabRanges z zoomRanges slab.1 slab.2 =
      (mergeIntervals none (slabIntervals zoomRanges slab)).map fun interval =>
        ⟨z, slab.1, slab.2 - 1, interval.1, interval.2⟩ := by
  unfold slabRanges
  rw [if_neg (not_le.mpr step)]
  rfl

/-- The ranges of a slab span its columns. -/
theorem slabRanges_columns {range : TileRange}
    (member : range ∈ slabRanges z zoomRanges slab.1 slab.2) :
    slab.1 < slab.2 ∧ range.z = z ∧ range.x0 = slab.1 ∧
      range.x1 = slab.2 - 1 := by
  by_cases step : slab.1 < slab.2
  · rw [slabRanges_eq step] at member
    obtain ⟨interval, _, rfl⟩ := List.mem_map.mp member
    exact ⟨step, rfl, rfl, rfl⟩
  · unfold slabRanges at member
    rw [if_pos (not_lt.mp step)] at member
    cases member

theorem slabRanges_apart (bounded : ∀ range ∈ zoomRanges, range.Bounded) :
    (slabRanges z zoomRanges slab.1 slab.2).Pairwise TileRange.Apart := by
  by_cases step : slab.1 < slab.2
  · rw [slabRanges_eq step, List.pairwise_map]
    have ascending : Ascending 0 (slabIntervals zoomRanges slab) :=
      ascending_slabIntervals bounded
    have separated := (mergeIntervals_none ascending).1
    apply separated.gaps.imp
    intro left right gap _ x y inLeft inRight
    have bottom : y ≤ left.2 := inLeft.bottom
    have top : right.1 ≤ y := inRight.top
    omega
  · unfold slabRanges
    rw [if_pos (not_lt.mp step)]
    exact List.Pairwise.nil

/-- In its columns a slab covers what the ranges of its zoom cover. -/
theorem slabRanges_covers (bounded : ∀ range ∈ zoomRanges, range.Bounded)
    (zoom : ∀ range ∈ zoomRanges, range.z = z)
    (member : slab ∈ Sweep.windows (boundariesOf zoomRanges)) {x y : Nat}
    (inside : slab.1 ≤ x ∧ x < slab.2) :
    (∃ range ∈ slabRanges z zoomRanges slab.1 slab.2, range.Covers z x y) ↔
      ∃ range ∈ zoomRanges, range.Covers z x y := by
  have step := (Sweep.window_gap (sorted_boundariesOf zoomRanges) member).1
  have ascending : Ascending 0 (slabIntervals zoomRanges slab) :=
    ascending_slabIntervals bounded
  have merged := (mergeIntervals_none ascending).2 y
  rw [slabRanges_eq step]
  constructor
  · rintro ⟨_, rangeMember, covers⟩
    obtain ⟨interval, intervalMember, rfl⟩ := List.mem_map.mp rangeMember
    obtain ⟨source, sourceMember, within⟩ :=
      merged.mp ⟨interval, intervalMember, covers.top, covers.bottom⟩
    obtain ⟨range, found, spans, rfl⟩ := mem_slabIntervals.mp sourceMember
    have columns := (spans_iff member found inside).mp spans
    exact ⟨range, found, zoom range found, columns.1, columns.2, within.1,
      within.2⟩
  · rintro ⟨range, found, covers⟩
    have spans := (spans_iff member found inside).mpr
      ⟨covers.left, covers.right⟩
    obtain ⟨interval, intervalMember, within⟩ := merged.mpr
      ⟨(range.y0, range.y1), mem_slabIntervals.mpr
        ⟨range, found, spans, rfl⟩, covers.top, covers.bottom⟩
    refine ⟨_, List.mem_map.mpr ⟨interval, intervalMember, rfl⟩, rfl,
      inside.1, ?_, within.1, within.2⟩
    dsimp only
    omega

end Slab

/-! ## The sweep -/

section Sweep

variable {ranges : List TileRange}

/-- The ranges of one zoom, swept. -/
def sweptZoom (ranges : List TileRange) (z : Nat) : List TileRange :=
  let zoomRanges := ranges.filter fun range => decide (range.z = z)
  (Sweep.windows (boundariesOf zoomRanges)).flatMap fun pair =>
    slabRanges z zoomRanges pair.1 pair.2

theorem disjointRanges_perm :
    (disjointRanges ranges).Perm
      ((sortedDedup (ranges.map TileRange.z)).flatMap (sweptZoom ranges)) :=
  List.perm_insertionSort rangeOrder _

theorem mem_zoomRanges {z : Nat} {range : TileRange} :
    range ∈ ranges.filter (fun range => decide (range.z = z)) ↔
      range ∈ ranges ∧ range.z = z := by
  simp

theorem sweptZoom_zoom {z : Nat} {range : TileRange}
    (member : range ∈ sweptZoom ranges z) : range.z = z := by
  obtain ⟨slab, _, inSlab⟩ := List.mem_flatMap.mp member
  exact (slabRanges_columns inSlab).2.1

theorem sweptZoom_apart (bounded : ∀ range ∈ ranges, range.Bounded)
    (z : Nat) : (sweptZoom ranges z).Pairwise TileRange.Apart := by
  refine List.pairwise_flatMap.mpr ⟨?_, ?_⟩
  · intro slab _
    apply slabRanges_apart
    exact fun range member => bounded range (mem_zoomRanges.mp member).1
  · apply (Sweep.windows_ordered (sorted_boundariesOf _)).imp
    intro left right ordered first inLeft second inRight zoom x y covers other
    obtain ⟨step, _, _, ends⟩ := slabRanges_columns inLeft
    obtain ⟨_, _, begins, _⟩ := slabRanges_columns inRight
    have before := covers.right
    have after := other.left
    omega

theorem sweptZoom_covers (bounded : ∀ range ∈ ranges, range.Bounded)
    {z x y : Nat} :
    (∃ range ∈ sweptZoom ranges z, range.Covers z x y) ↔
      ∃ range ∈ ranges, range.Covers z x y := by
  have boundedZoom : ∀ range ∈ ranges.filter fun range =>
      decide (range.z = z), range.Bounded :=
    fun range member => bounded range (mem_zoomRanges.mp member).1
  have zoom : ∀ range ∈ ranges.filter fun range => decide (range.z = z),
      range.z = z := fun range member => (mem_zoomRanges.mp member).2
  constructor
  · rintro ⟨range, member, covers⟩
    obtain ⟨slab, slabMember, inSlab⟩ := List.mem_flatMap.mp member
    obtain ⟨step, _, begins, ends⟩ := slabRanges_columns inSlab
    have inside : slab.1 ≤ x ∧ x < slab.2 := by
      have left := covers.left
      have right := covers.right
      omega
    obtain ⟨source, found, covered⟩ :=
      (slabRanges_covers boundedZoom zoom slabMember inside).mp
        ⟨range, inSlab, covers⟩
    exact ⟨source, (mem_zoomRanges.mp found).1, covered⟩
  · rintro ⟨range, member, covers⟩
    have found := mem_zoomRanges.mpr ⟨member, covers.zoom⟩
    obtain ⟨slab, slabMember, inside⟩ := Sweep.exists_window
      (sorted_boundariesOf (ranges.filter fun range => decide (range.z = z)))
      ⟨range.x0, mem_boundariesOf.mpr ⟨range, found, .inl rfl⟩, covers.left⟩
      ⟨range.x1 + 1, mem_boundariesOf.mpr ⟨range, found, .inr rfl⟩,
        Nat.lt_succ_of_le covers.right⟩
    obtain ⟨output, inSlab, covered⟩ :=
      (slabRanges_covers boundedZoom zoom slabMember inside).mpr
        ⟨range, found, covers⟩
    exact ⟨output, List.mem_flatMap.mpr ⟨slab, slabMember, inSlab⟩, covered⟩

/-- The output ranges are disjoint. -/
theorem disjointRanges_apart (bounded : ∀ range ∈ ranges, range.Bounded) :
    (disjointRanges ranges).Pairwise TileRange.Apart := by
  refine (disjointRanges_perm.pairwise_iff TileRange.Apart.symm).mpr ?_
  refine List.pairwise_flatMap.mpr ⟨fun z _ => sweptZoom_apart bounded z, ?_⟩
  have sorted : (sortedDedup (ranges.map TileRange.z)).Pairwise (· < ·) :=
    Sweep.sorted_destutter _
  apply sorted.imp
  intro left right less first inLeft second inRight z x y covers other
  have upper := (sweptZoom_zoom inLeft).symm.trans covers.zoom
  have lower := (sweptZoom_zoom inRight).symm.trans other.zoom
  omega

/-- The output ranges cover what the input ranges cover. -/
theorem disjointRanges_covers (bounded : ∀ range ∈ ranges, range.Bounded)
    {z x y : Nat} :
    (∃ range ∈ disjointRanges ranges, range.Covers z x y) ↔
      ∃ range ∈ ranges, range.Covers z x y := by
  rw [← sweptZoom_covers bounded]
  constructor
  · rintro ⟨range, member, covers⟩
    obtain ⟨zoom, _, swept⟩ :=
      List.mem_flatMap.mp (disjointRanges_perm.mem_iff.mp member)
    have same := (sweptZoom_zoom swept).symm.trans covers.zoom
    exact ⟨range, same ▸ swept, covers⟩
  · rintro ⟨range, swept, covers⟩
    obtain ⟨source, found, covered⟩ :=
      (sweptZoom_covers bounded).mp ⟨range, swept, covers⟩
    have zoom : z ∈ sortedDedup (ranges.map TileRange.z) :=
      Sweep.mem_destutter.mpr (List.mem_map.mpr ⟨source, found, covered.zoom⟩)
    exact ⟨range, disjointRanges_perm.mem_iff.mpr
      (List.mem_flatMap.mpr ⟨z, zoom, swept⟩), covers⟩

/-- The corners of the output ranges are ordered and in the grid. -/
theorem disjointRanges_bounded (bounded : ∀ range ∈ ranges, range.Bounded) :
    ∀ range ∈ disjointRanges ranges, range.Bounded := by
  intro range member
  have ordered : range.x0 ≤ range.x1 ∧ range.y0 ≤ range.y1 := by
    obtain ⟨z, _, swept⟩ :=
      List.mem_flatMap.mp (disjointRanges_perm.mem_iff.mp member)
    obtain ⟨slab, _, inSlab⟩ := List.mem_flatMap.mp swept
    obtain ⟨step, _, begins, ends⟩ := slabRanges_columns inSlab
    refine ⟨by omega, ?_⟩
    rw [slabRanges_eq step] at inSlab
    obtain ⟨interval, merged, rfl⟩ := List.mem_map.mp inSlab
    exact (mergeIntervals_none (ascending_slabIntervals fun other found =>
      bounded other (mem_zoomRanges.mp found).1)).1.proper interval merged
  -- The last tile of the range is a tile of an input range.
  have corner : range.Covers range.z range.x1 range.y1 :=
    ⟨rfl, ordered.1, le_rfl, ordered.2, le_rfl⟩
  obtain ⟨source, found, covers⟩ :=
    (disjointRanges_covers bounded).mp ⟨range, member, corner⟩
  have limits := bounded source found
  exact ⟨ordered.1, ordered.2, covers.right.trans_lt limits.right,
    covers.bottom.trans_lt limits.bottom⟩

end Sweep

end ChartLocker.Catalog
