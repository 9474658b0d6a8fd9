import ChartLocker.Catalog.Enumeration

/-!
# The grid of a zoom

`tile_for_lng_lat` clamps what its floating-point formula gives into the grid
of the zoom.  Whatever the formula gives, and in whatever order it puts the
corners of a box, an enumerated tile is in the grid and within the zooms of
its source.
-/

namespace ChartLocker.Catalog

/-- `(value).clamp(0, max) as u32` with the last column or row of the zoom as
the maximum. -/
def clampToGrid (value : Int) (z : Nat) : Nat :=
  (min (max value 0) (max (2 ^ z - 1) 0)).toNat

/-- `tile_for_lng_lat` around its formula, the two floors as `i64`. -/
def tileForLngLat (formula : ℚ → ℚ → Nat → Int × Int) (lng lat : ℚ)
    (z : Nat) : Nat × Nat :=
  (clampToGrid (formula lng lat z).1 z, clampToGrid (formula lng lat z).2 z)

theorem clampToGrid_lt (value : Int) (z : Nat) :
    clampToGrid value z < 2 ^ z := by
  have positive : 0 < 2 ^ z := Nat.two_pow_pos z
  have cast : ((2 ^ z : Nat) : Int) = 2 ^ z := Nat.cast_pow 2 z
  unfold clampToGrid
  omega

/-- The corners of a range are in the grid of its zoom, in any order. -/
structure TileRange.InGrid (range : TileRange) : Prop where
  left : range.x0 < 2 ^ range.z
  right : range.x1 < 2 ^ range.z
  bottom : range.y1 < 2 ^ range.z

theorem mergeIntervals_le {limit : Nat} {current : Option (Nat × Nat)}
    {rest : List (Nat × Nat)}
    (first : ∀ interval ∈ current, interval.2 ≤ limit)
    (others : ∀ interval ∈ rest, interval.2 ≤ limit) :
    ∀ merged ∈ mergeIntervals current rest, merged.2 ≤ limit := by
  induction rest generalizing current with
  | nil =>
      cases current with
      | none => exact nofun
      | some interval => simpa [mergeIntervals] using first
  | cons interval rest induction =>
      obtain ⟨head, tail⟩ := List.forall_mem_cons.mp others
      cases current with
      | none =>
          apply induction _ tail
          rintro _ ⟨⟩
          exact head
      | some running =>
          have opened : running.2 ≤ limit := first running rfl
          unfold mergeIntervals
          split
          · apply induction _ tail
            rintro _ ⟨⟩
            exact max_le opened head
          · intro merged member
            rcases List.mem_cons.mp member with rfl | later
            · exact opened
            · apply induction _ tail merged later
              rintro _ ⟨⟩
              exact head

section Ranges

variable {ranges : List TileRange} {range : TileRange}

/-- A slab ends where a range of its zoom ends or another one begins. -/
theorem sweptZoom_inGrid {z : Nat}
    (inGrid : ∀ range ∈ ranges, range.InGrid)
    (member : range ∈ sweptZoom ranges z) : range.InGrid := by
  obtain ⟨slab, window, inSlab⟩ := List.mem_flatMap.mp member
  obtain ⟨step, zoom, left, right⟩ := slabRanges_columns inSlab
  have corner := List.mem_of_mem_tail (List.of_mem_zip window).2
  obtain ⟨source, sourceMember, atEnd⟩ := mem_boundariesOf.mp corner
  obtain ⟨stored, sourceZoom⟩ := mem_zoomRanges.mp sourceMember
  have corners := inGrid source stored
  have atLeft := corners.left
  have atRight := corners.right
  rw [sourceZoom] at atLeft atRight
  rw [slabRanges_eq step] at inSlab
  obtain ⟨interval, merged, rfl⟩ := List.mem_map.mp inSlab
  have low : interval.2 ≤ 2 ^ z - 1 := by
    apply mergeIntervals_le (by simp) _ interval merged
    intro interval chosen
    obtain ⟨range, rangeMember, _, rfl⟩ := mem_slabIntervals.mp chosen
    obtain ⟨rangeStored, rangeZoom⟩ := mem_zoomRanges.mp rangeMember
    have bottom := (inGrid range rangeStored).bottom
    rw [rangeZoom] at bottom
    exact Nat.le_sub_one_of_lt bottom
  have positive : 0 < 2 ^ z := Nat.two_pow_pos z
  constructor
  · change slab.1 < 2 ^ z
    omega
  · change slab.2 - 1 < 2 ^ z
    omega
  · change interval.2 < 2 ^ z
    omega

theorem disjointRanges_inGrid (inGrid : ∀ range ∈ ranges, range.InGrid)
    (member : range ∈ disjointRanges ranges) :
    range.InGrid ∧ ∃ source ∈ ranges, source.z = range.z := by
  obtain ⟨z, zooms, swept⟩ :=
    List.mem_flatMap.mp (disjointRanges_perm.mem_iff.mp member)
  refine ⟨sweptZoom_inGrid inGrid swept, ?_⟩
  have named := Library.Sweep.mem_destutter.mp zooms
  obtain ⟨source, stored, same⟩ := List.mem_map.mp named
  exact ⟨source, stored, same.trans (sweptZoom_zoom swept).symm⟩

end Ranges

section Tiles

variable {formula : ℚ → ℚ → Nat → Int × Int} {source : ChartSource}
  {bbox : BBox} {zmin zmax : Nat} {tile : Nat × Nat × Nat}

theorem sourceRanges_inGrid {range : TileRange}
    (member : range ∈ sourceRanges (tileForLngLat formula) source bbox zmin
      zmax) : range.InGrid := by
  obtain ⟨_, _, clip, _, same⟩ := mem_sourceRanges.mp member
  rw [← same]
  exact ⟨clampToGrid_lt _ _, clampToGrid_lt _ _, clampToGrid_lt _ _⟩

/-- An enumerated tile is at a zoom of the source and in the grid of that
zoom. -/
theorem tilesIter_inGrid
    (member : tile ∈ tilesIter (tileForLngLat formula) source bbox zmin
      zmax) :
    source.minzoom ≤ tile.1 ∧ tile.1 ≤ source.maxzoom ∧
      tile.1 ≤ maxEffectiveZoom ∧ tile.2.1 < 2 ^ tile.1 ∧
      tile.2.2 < 2 ^ tile.1 := by
  obtain ⟨z, x, y⟩ := tile
  unfold tilesIter at member
  rw [coveredRanges_eq] at member
  obtain ⟨range, found, covers⟩ := mem_flatMap_tiles.mp member
  obtain ⟨corners, origin, stored, zoom⟩ := disjointRanges_inGrid
    (fun _ => sourceRanges_inGrid) found
  obtain ⟨least, most, _⟩ := mem_sourceRanges.mp stored
  rw [zoom, covers.zoom] at least most
  have right := corners.right
  have bottom := corners.bottom
  rw [covers.zoom] at right bottom
  obtain ⟨within, effective⟩ := le_min_iff.mp most
  exact ⟨(le_max_right _ _).trans least, (le_min_iff.mp within).2, effective,
    covers.right.trans_lt right, covers.bottom.trans_lt bottom⟩

end Tiles

end ChartLocker.Catalog
