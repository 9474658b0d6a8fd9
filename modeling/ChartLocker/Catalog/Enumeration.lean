import ChartLocker.Catalog.Cover
import Mathlib.Data.Set.Card

/-!
# The enumerated tiles

The arithmetic of `geom.rs` in machine words, where an overflow has no result,
and the tiles which are counted and enumerated for a source and a box.
-/

namespace ChartLocker.Catalog

open Library

/-! ## Machine arithmetic -/

namespace Checked

def addU32 (left right : Nat) : Option Nat :=
  if left + right < 2 ^ 32 then some (left + right) else none

/-- A subtraction of unsigned integers of either width. -/
def sub (left right : Nat) : Option Nat :=
  if right ≤ left then some (left - right) else none

def addU64 (left right : Nat) : Option Nat :=
  if left + right < 2 ^ 64 then some (left + right) else none

def mulU64 (left right : Nat) : Option Nat :=
  if left * right < 2 ^ 64 then some (left * right) else none

def saturatingAddU32 (left right : Nat) : Nat :=
  min (left + right) (2 ^ 32 - 1)

def mergeIntervals : Option (Nat × Nat) → List (Nat × Nat) →
    List (Nat × Nat)
  | none, [] => []
  | some current, [] => [current]
  | none, interval :: rest => mergeIntervals (some interval) rest
  | some (start, finish), interval :: rest =>
      if interval.1 ≤ saturatingAddU32 finish 1 then
        mergeIntervals (some (start, max finish interval.2)) rest
      else
        (start, finish) :: mergeIntervals (some interval) rest

def slabRanges (z : Nat) (zoomRanges : List TileRange) (x0 xEnd : Nat) :
    Option (List TileRange) :=
  if x0 ≥ xEnd then
    some []
  else
    (sub xEnd 1).map fun x1 =>
      let covering := zoomRanges.filter fun range =>
        decide (range.x0 ≤ x0) && decide (range.x1 ≥ x1)
      let intervals := (covering.map fun range => (range.y0, range.y1))
        |>.insertionSort fun left right => left.1 ≤ right.1
      (mergeIntervals none intervals).map fun interval =>
        ⟨z, x0, x1, interval.1, interval.2⟩

def sweptZoom (ranges : List TileRange) (z : Nat) :
    Option (List TileRange) := do
  let zoomRanges := ranges.filter fun range => decide (range.z = z)
  let ends ← zoomRanges.mapM fun range =>
    (addU32 range.x1 1).map fun xEnd => [range.x0, xEnd]
  let boundaries := sortedDedup ends.flatten
  let slabs ← (boundaries.zip boundaries.tail).mapM fun pair =>
    slabRanges z zoomRanges pair.1 pair.2
  return slabs.flatten

def disjointRanges (ranges : List TileRange) : Option (List TileRange) := do
  let zooms ← (sortedDedup (ranges.map TileRange.z)).mapM (sweptZoom ranges)
  return zooms.flatten.insertionSort rangeOrder

/-- The tiles of a range: `(x1 - x0 + 1) * (y1 - y0 + 1)`. -/
def area (range : TileRange) : Option Nat := do
  let width ← sub range.x1 range.x0
  let columns ← addU64 width 1
  let height ← sub range.y1 range.y0
  let rows ← addU64 height 1
  mulU64 columns rows

def countTiles (ranges : List TileRange) : Option Nat :=
  ranges.foldlM (fun count range => (area range).bind (addU64 count)) 0

end Checked

section Arithmetic

variable {ranges : List TileRange}

theorem mapM_eq_some {α β : Type} {values : List α} {run : α → Option β}
    {result : α → β}
    (each : ∀ value ∈ values, run value = some (result value)) :
    values.mapM run = some (values.map result) := by
  induction values with
  | nil => rfl
  | cons value values induction =>
      rw [List.mapM_cons, each value List.mem_cons_self,
        induction fun later member => each later
          (List.mem_cons_of_mem value member)]
      rfl

theorem checked_mergeIntervals {current : Option (Nat × Nat)}
    {intervals : List (Nat × Nat)}
    (small : ∀ interval ∈ current.toList ++ intervals,
      interval.2 < 2 ^ 24) :
    Checked.mergeIntervals current intervals =
      mergeIntervals current intervals := by
  induction intervals generalizing current with
  | nil => cases current <;> rfl
  | cons interval rest induction =>
      cases current with
      | none => exact induction fun other member => small other member
      | some open_ =>
          obtain ⟨start, finish⟩ := open_
          have bound : finish < 2 ^ 24 :=
            small (start, finish) List.mem_cons_self
          have next : interval.2 < 2 ^ 24 := small interval (by simp)
          have later : ∀ other ∈ rest, other.2 < 2 ^ 24 :=
            fun other member => small other (by simp [member])
          have exact : Checked.saturatingAddU32 finish 1 = finish + 1 := by
            unfold Checked.saturatingAddU32
            omega
          unfold Checked.mergeIntervals mergeIntervals
          rw [exact]
          split
          · apply induction
            intro other member
            rcases List.mem_cons.mp member with rfl | inRest
            · dsimp only
              omega
            · exact later other inRest
          · rw [induction]
            intro other member
            rcases List.mem_cons.mp member with rfl | inRest
            · exact next
            · exact later other inRest

theorem checked_slabRanges {z : Nat} {zoomRanges : List TileRange}
    (bounded : ∀ range ∈ zoomRanges, range.Bounded) (x0 xEnd : Nat) :
    Checked.slabRanges z zoomRanges x0 xEnd =
      some (slabRanges z zoomRanges x0 xEnd) := by
  unfold Checked.slabRanges slabRanges
  split
  · rfl
  · next step =>
    have positive : 1 ≤ xEnd := by omega
    have last : Checked.sub xEnd 1 = some (xEnd - 1) := if_pos positive
    rw [last, Option.map_some]
    congr 1
    dsimp only
    rw [checked_mergeIntervals]
    intro interval member
    obtain ⟨range, found, rfl⟩ :
        ∃ range ∈ zoomRanges, (range.y0, range.y1) = interval := by
      simp only [Option.toList_none, List.nil_append,
        List.mem_insertionSort, List.mem_map, List.mem_filter] at member
      obtain ⟨range, ⟨found, _⟩, same⟩ := member
      exact ⟨range, found, same⟩
    exact (bounded range found).bottom

theorem checked_sweptZoom (bounded : ∀ range ∈ ranges, range.Bounded)
    (z : Nat) :
    Checked.sweptZoom ranges z = some (sweptZoom ranges z) := by
  have boundedZoom : ∀ range ∈ ranges.filter fun range =>
      decide (range.z = z), range.Bounded :=
    fun range member => bounded range (mem_zoomRanges.mp member).1
  have ends : (ranges.filter fun range => decide (range.z = z)).mapM
      (fun range => (Checked.addU32 range.x1 1).map fun xEnd =>
        [range.x0, xEnd]) =
      some ((ranges.filter fun range => decide (range.z = z)).map
        fun range => [range.x0, range.x1 + 1]) := by
    apply mapM_eq_some
    intro range member
    have limit := (boundedZoom range member).right
    have sum : Checked.addU32 range.x1 1 = some (range.x1 + 1) :=
      if_pos (by omega)
    rw [sum]
    rfl
  unfold Checked.sweptZoom
  dsimp only
  rw [ends]
  simp only [Option.bind_eq_bind, Option.bind_some]
  rw [mapM_eq_some fun pair _ => checked_slabRanges boundedZoom pair.1 pair.2]
  rfl

/-- No step of the sweep over- or underflows. -/
theorem checked_disjointRanges (bounded : ∀ range ∈ ranges, range.Bounded) :
    Checked.disjointRanges ranges = some (disjointRanges ranges) := by
  unfold Checked.disjointRanges
  rw [mapM_eq_some fun z _ => checked_sweptZoom bounded z]
  rfl

end Arithmetic

/-! ## Tiles of ranges -/

section Tiles

variable {ranges : List TileRange} {range : TileRange}

theorem mem_tiles {z x y : Nat} :
    (z, x, y) ∈ range.tiles ↔ range.Covers z x y := by
  unfold TileRange.tiles
  simp only [List.mem_flatMap, List.mem_map, List.mem_range'_1, Prod.mk.injEq]
  constructor
  · rintro ⟨column, columns, row, rows, rfl, rfl, rfl⟩
    exact ⟨rfl, by omega, by omega, by omega, by omega⟩
  · rintro ⟨rfl, left, right, top, bottom⟩
    exact ⟨x, by omega, y, by omega, rfl, rfl, rfl⟩

theorem nodup_tiles : range.tiles.Nodup := by
  unfold TileRange.tiles
  refine List.nodup_flatMap.mpr ⟨?_, ?_⟩
  · intro column _
    apply List.Nodup.map _ List.nodup_range'
    intro left right same
    simpa using same
  · apply (List.nodup_range' : (List.range' range.x0
      (range.x1 + 1 - range.x0)).Nodup).imp
    intro left right different tile inLeft inRight
    obtain ⟨_, _, rfl⟩ := List.mem_map.mp inLeft
    obtain ⟨_, _, same⟩ := List.mem_map.mp inRight
    simp only [Prod.mk.injEq, true_and] at same
    exact different same.1.symm

/-- Disjoint ranges enumerate every tile once. -/
theorem nodup_flatMap_tiles (apart : ranges.Pairwise TileRange.Apart) :
    (ranges.flatMap TileRange.tiles).Nodup := by
  refine List.nodup_flatMap.mpr ⟨fun _ _ => nodup_tiles, apart.imp ?_⟩
  rintro left right apart ⟨z, x, y⟩ inLeft inRight
  exact apart z x y (mem_tiles.mp inLeft) (mem_tiles.mp inRight)

theorem mem_flatMap_tiles {z x y : Nat} :
    (z, x, y) ∈ ranges.flatMap TileRange.tiles ↔
      ∃ range ∈ ranges, range.Covers z x y := by
  simp only [List.mem_flatMap, mem_tiles]

/-- Fewer tiles than a 64-bit counter holds. -/
theorem length_lt_of_nodup {tiles : List (Nat × Nat × Nat)}
    (nodup : tiles.Nodup) (grid : ∀ tile ∈ tiles,
      tile.1 ≤ 24 ∧ tile.2.1 < 2 ^ 24 ∧ tile.2.2 < 2 ^ 24) :
    tiles.length < 2 ^ 64 := by
  let all := Finset.range 25 ×ˢ Finset.range (2 ^ 24) ×ˢ Finset.range (2 ^ 24)
  have inside : tiles.toFinset ⊆ all := by
    intro tile member
    have limits := grid tile (List.mem_toFinset.mp member)
    simp only [all, Finset.mem_product, Finset.mem_range]
    exact ⟨by omega, limits.2.1, limits.2.2⟩
  have bound := Finset.card_le_card inside
  rw [List.toFinset_card_of_nodup nodup] at bound
  simp only [all, Finset.card_product, Finset.card_range] at bound
  omega

theorem length_tiles : range.tiles.length =
    (range.x1 + 1 - range.x0) * (range.y1 + 1 - range.y0) := by
  simp [TileRange.tiles, List.length_flatMap]

theorem checked_area (bounded : range.Bounded) :
    Checked.area range = some range.tiles.length := by
  obtain ⟨columns, rows, right, bottom⟩ := bounded
  have width : Checked.sub range.x1 range.x0 = some (range.x1 - range.x0) :=
    if_pos columns
  have height : Checked.sub range.y1 range.y0 = some (range.y1 - range.y0) :=
    if_pos rows
  have wide : Checked.addU64 (range.x1 - range.x0) 1 =
      some (range.x1 + 1 - range.x0) := by
    unfold Checked.addU64
    rw [if_pos (by omega)]
    congr 1
    omega
  have high : Checked.addU64 (range.y1 - range.y0) 1 =
      some (range.y1 + 1 - range.y0) := by
    unfold Checked.addU64
    rw [if_pos (by omega)]
    congr 1
    omega
  have product : (range.x1 + 1 - range.x0) * (range.y1 + 1 - range.y0) <
      2 ^ 64 := by
    have first : range.x1 + 1 - range.x0 ≤ 2 ^ 24 := by omega
    have second : range.y1 + 1 - range.y0 ≤ 2 ^ 24 := by omega
    calc _ ≤ 2 ^ 24 * 2 ^ 24 := Nat.mul_le_mul first second
      _ < 2 ^ 64 := by omega
  unfold Checked.area
  simp only [width, wide, height, high, length_tiles, Option.bind_eq_bind,
    Option.bind_some]
  exact if_pos product

/-- A sum which stays below the limit is counted exactly. -/
theorem checked_foldlM (bounded : ∀ range ∈ ranges, range.Bounded)
    (count : Nat)
    (small : count + (ranges.flatMap TileRange.tiles).length < 2 ^ 64) :
    ranges.foldlM (fun count range =>
      (Checked.area range).bind (Checked.addU64 count)) count =
        some (count + (ranges.flatMap TileRange.tiles).length) := by
  induction ranges generalizing count with
  | nil => rfl
  | cons range ranges induction =>
      rw [List.flatMap_cons, List.length_append] at small ⊢
      have sum : Checked.addU64 count range.tiles.length =
          some (count + range.tiles.length) := if_pos (by omega)
      rw [List.foldlM_cons, checked_area (bounded range List.mem_cons_self),
        Option.bind_some, sum, Option.bind_eq_bind, Option.bind_some,
        induction (fun later member => bounded later
          (List.mem_cons_of_mem range member)) _ (by omega), add_assoc]

end Tiles

/-! ## Tiles of a source -/

/-- The projection puts points further east and further south into later
columns and rows, and clamps both into the grid of the zoom. -/
structure Projects (tileForLngLat : ℚ → ℚ → Nat → Nat × Nat) : Prop where
  columns : ∀ {west east : ℚ}, west ≤ east → ∀ north south z,
    (tileForLngLat west north z).1 ≤ (tileForLngLat east south z).1
  rows : ∀ {south north : ℚ}, south ≤ north → ∀ west east z,
    (tileForLngLat west north z).2 ≤ (tileForLngLat east south z).2
  columnGrid : ∀ lng lat z, (tileForLngLat lng lat z).1 < 2 ^ z
  rowGrid : ∀ lng lat z, (tileForLngLat lng lat z).2 < 2 ^ z

section Source

variable (tileForLngLat : ℚ → ℚ → Nat → Nat × Nat) (source : ChartSource)
  (bbox : BBox) (zmin zmax : Nat)

/-- The ranges which `covered_ranges` makes disjoint: one for each zoom and
each clipped box. -/
def sourceRanges : List TileRange :=
  let bounds := zoomBounds source zmin zmax
  if bounds.1 > bounds.2 ∨ clips source bbox = [] then
    []
  else
    (List.range' bounds.1 (bounds.2 + 1 - bounds.1)).flatMap fun z =>
      (clips source bbox).map fun clip => tileRect tileForLngLat clip z

/-- A tile which a clipped box covers at a zoom of the request. -/
def CoveredTile (tile : Nat × Nat × Nat) : Prop :=
  (zoomBounds source zmin zmax).1 ≤ tile.1 ∧
    tile.1 ≤ (zoomBounds source zmin zmax).2 ∧
    ∃ clip ∈ clips source bbox,
      (tileRect tileForLngLat clip tile.1).Covers tile.1 tile.2.1 tile.2.2

namespace Checked

def coveredRanges : Option (List TileRange) :=
  disjointRanges (sourceRanges tileForLngLat source bbox zmin zmax)

def tileCountInBbox : Option Nat :=
  (coveredRanges tileForLngLat source bbox zmin zmax).bind countTiles

end Checked

variable {tileForLngLat source bbox zmin zmax}

theorem coveredRanges_eq :
    coveredRanges tileForLngLat source bbox zmin zmax =
      disjointRanges
        (sourceRanges tileForLngLat source bbox zmin zmax) := by
  unfold coveredRanges sourceRanges
  dsimp only
  split
  · rfl
  · rfl

theorem mem_clips {clip : BBox} (member : clip ∈ clips source bbox) :
    clip.west < clip.east ∧ clip.south < clip.north := by
  unfold clips at member
  split at member
  · cases member
  · simp only [List.mem_flatMap, List.mem_filterMap] at member
    obtain ⟨request, _, box, _, met⟩ := member
    unfold intersect at met
    dsimp only at met
    split at met
    · next ordered =>
      cases met
      exact ordered
    · cases met

theorem mem_sourceRanges {range : TileRange} :
    range ∈ sourceRanges tileForLngLat source bbox zmin zmax ↔
      (zoomBounds source zmin zmax).1 ≤ range.z ∧
        range.z ≤ (zoomBounds source zmin zmax).2 ∧
        ∃ clip ∈ clips source bbox,
          tileRect tileForLngLat clip range.z = range := by
  unfold sourceRanges
  dsimp only
  split
  · next empty =>
    constructor
    · intro member
      cases member
    · rintro ⟨least, greatest, clip, found, _⟩
      rcases empty with above | none
      · omega
      · rw [none] at found
        cases found
  · simp only [List.mem_flatMap, List.mem_map, List.mem_range'_1]
    constructor
    · rintro ⟨z, zooms, clip, found, rfl⟩
      exact ⟨zooms.1, by change z ≤ _; omega, clip, found, rfl⟩
    · rintro ⟨least, greatest, clip, found, same⟩
      exact ⟨range.z, ⟨least, by omega⟩, clip, found, same⟩

theorem sourceRanges_bounded (projects : Projects tileForLngLat) :
    ∀ range ∈ sourceRanges tileForLngLat source bbox zmin zmax,
      range.Bounded := by
  intro range member
  obtain ⟨_, greatest, clip, found, same⟩ := mem_sourceRanges.mp member
  obtain ⟨across, down⟩ := mem_clips found
  have zoom : range.z ≤ 24 :=
    greatest.trans ((min_le_right _ _).trans le_rfl)
  have grid : 2 ^ range.z ≤ 2 ^ 24 := Nat.pow_le_pow_right (by omega) zoom
  rw [← same]
  exact ⟨projects.columns (le_of_lt across) _ _ _,
    projects.rows (le_of_lt down) _ _ _,
    (projects.columnGrid _ _ _).trans_le grid,
    (projects.rowGrid _ _ _).trans_le grid⟩

theorem mem_tilesIter (projects : Projects tileForLngLat)
    {tile : Nat × Nat × Nat} :
    tile ∈ tilesIter tileForLngLat source bbox zmin zmax ↔
      CoveredTile tileForLngLat source bbox zmin zmax tile := by
  obtain ⟨z, x, y⟩ := tile
  unfold tilesIter
  rw [coveredRanges_eq, mem_flatMap_tiles,
    disjointRanges_covers (sourceRanges_bounded projects)]
  constructor
  · rintro ⟨range, member, covers⟩
    obtain ⟨least, greatest, clip, found, same⟩ := mem_sourceRanges.mp member
    have zoom := covers.zoom
    subst zoom
    exact ⟨least, greatest, clip, found, same ▸ covers⟩
  · rintro ⟨least, greatest, clip, found, covers⟩
    exact ⟨_, mem_sourceRanges.mpr ⟨least, greatest, clip, found, rfl⟩,
      covers⟩

theorem nodup_tilesIter (projects : Projects tileForLngLat) :
    (tilesIter tileForLngLat source bbox zmin zmax).Nodup := by
  unfold tilesIter
  rw [coveredRanges_eq]
  exact nodup_flatMap_tiles
    (disjointRanges_apart (sourceRanges_bounded projects))

theorem coveredTile_grid (projects : Projects tileForLngLat)
    {tile : Nat × Nat × Nat}
    (covered : CoveredTile tileForLngLat source bbox zmin zmax tile) :
    tile.1 ≤ 24 ∧ tile.2.1 < 2 ^ 24 ∧ tile.2.2 < 2 ^ 24 := by
  obtain ⟨_, greatest, clip, _, covers⟩ := covered
  have zoom : tile.1 ≤ 24 := greatest.trans (min_le_right _ _)
  have grid : 2 ^ tile.1 ≤ 2 ^ 24 := Nat.pow_le_pow_right (by omega) zoom
  refine ⟨zoom, ?_, ?_⟩
  · exact (covers.right.trans_lt (projects.columnGrid _ _ _)).trans_le grid
  · exact (covers.bottom.trans_lt (projects.rowGrid _ _ _)).trans_le grid

/-- No step of the count over- or underflows. -/
theorem checked_tileCountInBbox (projects : Projects tileForLngLat) :
    Checked.tileCountInBbox tileForLngLat source bbox zmin zmax =
      some (tileCountInBbox tileForLngLat source bbox zmin zmax) := by
  have inputs : ∀ range ∈ sourceRanges tileForLngLat source bbox zmin zmax,
      range.Bounded := sourceRanges_bounded projects
  have small : (tilesIter tileForLngLat source bbox zmin zmax).length <
      2 ^ 64 := by
    apply length_lt_of_nodup (nodup_tilesIter projects)
    intro tile member
    exact coveredTile_grid projects ((mem_tilesIter projects).mp member)
  have counted := checked_foldlM (disjointRanges_bounded inputs) 0
  unfold tilesIter at small
  rw [coveredRanges_eq] at small
  rw [zero_add] at counted
  have total := counted small
  unfold Checked.tileCountInBbox Checked.coveredRanges Checked.countTiles
  rw [checked_disjointRanges inputs, Option.bind_some, total,
    ← length_tilesIter, tilesIter, coveredRanges_eq]

/-- The count is the number of the tiles which are covered. -/
theorem tileCountInBbox_eq_ncard (projects : Projects tileForLngLat) :
    tileCountInBbox tileForLngLat source bbox zmin zmax =
      {tile | CoveredTile tileForLngLat source bbox zmin zmax tile}.ncard := by
  let tiles := tilesIter tileForLngLat source bbox zmin zmax
  have same : {tile | CoveredTile tileForLngLat source bbox zmin zmax tile} =
      (tiles.toFinset : Set (Nat × Nat × Nat)) := by
    ext tile
    rw [List.coe_toFinset]
    exact (mem_tilesIter projects).symm
  rw [same, Set.ncard_coe_finset,
    List.toFinset_card_of_nodup (nodup_tilesIter projects),
    length_tilesIter]

end Source

/-! ## Exact cover -/

/-- `disjoint_ranges` gives, without an overflow, disjoint ranges which cover
what its input covers, and so the tiles of a source and a box are each
counted and enumerated once. -/
theorem disjointRanges_exact_cover :
    (∀ ranges : List TileRange, (∀ range ∈ ranges, range.Bounded) →
      Checked.disjointRanges ranges = some (disjointRanges ranges) ∧
      (disjointRanges ranges).Pairwise TileRange.Apart ∧
      ∀ z x y, (∃ range ∈ disjointRanges ranges, range.Covers z x y) ↔
        ∃ range ∈ ranges, range.Covers z x y) ∧
    ∀ tileForLngLat, Projects tileForLngLat → ∀ source bbox zmin zmax,
      let tiles := tilesIter tileForLngLat source bbox zmin zmax
      let count := tileCountInBbox tileForLngLat source bbox zmin zmax
      let covered := {tile |
        CoveredTile tileForLngLat source bbox zmin zmax tile}
      Checked.tileCountInBbox tileForLngLat source bbox zmin zmax =
          some count ∧
        count = covered.ncard ∧ count = tiles.length ∧ tiles.Nodup ∧
        ∀ tile, tile ∈ tiles ↔ tile ∈ covered := by
  constructor
  · intro ranges bounded
    exact ⟨checked_disjointRanges bounded, disjointRanges_apart bounded,
      fun z x y => disjointRanges_covers bounded⟩
  · intro tileForLngLat projects source bbox zmin zmax
    exact ⟨checked_tileCountInBbox projects, tileCountInBbox_eq_ncard projects,
      (length_tilesIter _ _ _ _ _).symm, nodup_tilesIter projects,
      fun _ => mem_tilesIter projects⟩

/-- The projection as it is at the zooms `0` and `1`, where a tile is a
hemisphere or a quarter of the world. -/
def quarters (lng lat : ℚ) (z : Nat) : Nat × Nat :=
  if z = 0 then
    (0, 0)
  else
    (if lng < 0 then 0 else 2 ^ (z - 1), if 0 < lat then 0 else 2 ^ (z - 1))

theorem quarters_projects : Projects quarters where
  columns := by
    intro west east ordered north south z
    unfold quarters
    split
    · exact le_rfl
    · dsimp only
      split
      · exact Nat.zero_le _
      · next eastern =>
        have further : ¬ east < 0 := fun western =>
          eastern (ordered.trans_lt western)
        rw [if_neg further]
  rows := by
    intro south north ordered west east z
    unfold quarters
    split
    · exact le_rfl
    · dsimp only
      split
      · exact Nat.zero_le _
      · next southern =>
        have further : ¬ 0 < south := fun northern =>
          southern (northern.trans_le ordered)
        rw [if_neg further]
  columnGrid := by
    intro lng lat z
    unfold quarters
    split
    · exact Nat.two_pow_pos z
    · have half : 2 ^ (z - 1) < 2 ^ z :=
        Nat.pow_lt_pow_right (by omega) (by omega)
      dsimp only
      split
      · exact Nat.two_pow_pos z
      · exact half
  rowGrid := by
    intro lng lat z
    unfold quarters
    split
    · exact Nat.two_pow_pos z
    · have half : 2 ^ (z - 1) < 2 ^ z :=
        Nat.pow_lt_pow_right (by omega) (by omega)
      dsimp only
      split
      · exact Nat.two_pow_pos z
      · exact half

/-- A chart of two overlapping boxes across the prime meridian. -/
def meridianChart : ChartSource where
  id := "meridian"
  title := "Meridian"
  upstream := .xyz "https://charts.example/{z}/{x}/{y}.png"
  tileSize := 256
  minzoom := 0
  maxzoom := 1
  vectorMaxzoom := none
  bounds := none
  coverage := some [⟨-10, 10, 10, 40⟩, ⟨-5, -20, 20, 30⟩]
  maxAgeSeconds := none
  attribution := ""

theorem disjointRanges_exact_cover_meridianChart :
    (disjointRanges [⟨1, 0, 1, 0, 0⟩, ⟨1, 0, 1, 0, 1⟩]).Pairwise
        TileRange.Apart ∧
      {tile | CoveredTile quarters meridianChart ⟨-180, -80, 180, 80⟩ 0 1
        tile}.ncard = 5 := by
  have cover := disjointRanges_exact_cover.1
    [⟨1, 0, 1, 0, 0⟩, ⟨1, 0, 1, 0, 1⟩] (by
      simp only [List.mem_cons, List.not_mem_nil, or_false, forall_eq_or_imp,
        forall_eq]
      exact ⟨⟨by decide, by decide, by decide, by decide⟩,
        by decide, by decide, by decide, by decide⟩)
  have tiles := disjointRanges_exact_cover.2 quarters quarters_projects
    meridianChart ⟨-180, -80, 180, 80⟩ 0 1
  have five : tileCountInBbox quarters meridianChart
      ⟨-180, -80, 180, 80⟩ 0 1 = 5 := by decide +kernel
  exact ⟨cover.2.1, tiles.2.1.symm.trans five⟩

end ChartLocker.Catalog
