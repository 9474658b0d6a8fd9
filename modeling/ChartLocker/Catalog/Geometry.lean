import ChartLocker.Catalog.Source
import Mathlib.Algebra.GroupWithZero.Nat
import Mathlib.Algebra.Order.Ring.Rat
import Mathlib.Data.List.Destutter
import Mathlib.Data.List.Sort

/-!
# The tiles of a bounding box

The enumeration of `geom.rs`.  The Web Mercator inverse `tile_for_lng_lat` is
floating-point trigonometry and enters as an argument: the results hold for
every function in its place.  Coordinates are finite, as `start_warm` checks.
-/

namespace ChartLocker.Catalog

/-- The `f64` which is closest to `85.0511287798066`. -/
def maxMercatorLat : ℚ := 5984941123127767 / 70368744177664

def maxEffectiveZoom : Nat := 24

/-- A box which crosses the antimeridian has its west edge east of its east
edge. -/
def splitBbox (box : BBox) : List BBox :=
  if box.west < box.east then
    [box]
  else if box.west > box.east then
    [{ box with east := 180 }, { box with west := -180 }]
  else
    []

def intersect (left right : BBox) : Option BBox :=
  let west := max left.west right.west
  let south := max (max left.south right.south) (-maxMercatorLat)
  let east := min left.east right.east
  let north := min (min left.north right.north) maxMercatorLat
  if west < east ∧ south < north then some ⟨west, south, east, north⟩ else none

/-- The boxes of a source: its coverage, else its bounds, else the world. -/
def coverageBoxes (source : ChartSource) : List BBox :=
  source.coverage.getD
    (source.bounds.elim [⟨-180, -90, 180, 90⟩] fun bounds => [bounds])

def clips (source : ChartSource) (bbox : BBox) : List BBox :=
  -- Between a western and an eastern edge which are swapped, the absolute
  -- difference is the difference.  It is exact here; in `f64`, edges of which
  -- one lies 2⁻⁴⁵ from the antimeridian and the other on it are 360 apart too.
  if bbox.west = bbox.east ∨
      (bbox.west > bbox.east ∧ bbox.west - bbox.east = 360) ∨
      bbox.south ≥ bbox.north then
    []
  else
    let sourceBoxes := (coverageBoxes source).flatMap splitBbox
    (splitBbox bbox).flatMap fun request => sourceBoxes.filterMap
      (intersect request)

def zoomBounds (source : ChartSource) (zmin zmax : Nat) : Nat × Nat :=
  (max zmin source.minzoom, min (min zmax source.maxzoom) maxEffectiveZoom)

structure TileRange where
  z : Nat
  x0 : Nat
  x1 : Nat
  y0 : Nat
  y1 : Nat
deriving DecidableEq, Repr

/-- `sort_unstable` and `dedup`. -/
def sortedDedup (values : List Nat) : List Nat :=
  (values.insertionSort (· ≤ ·)).destutter (· ≠ ·)

/-- The merge loop over the intervals of one slab, sorted by their start. -/
def mergeIntervals : Option (Nat × Nat) → List (Nat × Nat) →
    List (Nat × Nat)
  | none, [] => []
  | some current, [] => [current]
  | none, interval :: rest => mergeIntervals (some interval) rest
  | some (start, finish), interval :: rest =>
      if interval.1 ≤ finish + 1 then
        mergeIntervals (some (start, max finish interval.2)) rest
      else
        (start, finish) :: mergeIntervals (some interval) rest

/-- The ranges of one slab of columns `x0 ..< xEnd`. -/
def slabRanges (z : Nat) (zoomRanges : List TileRange) (x0 xEnd : Nat) :
    List TileRange :=
  if x0 ≥ xEnd then
    []
  else
    let covering := zoomRanges.filter fun range =>
      decide (range.x0 ≤ x0) && decide (range.x1 ≥ xEnd - 1)
    let intervals := (covering.map fun range => (range.y0, range.y1))
      |>.insertionSort fun left right => left.1 ≤ right.1
    (mergeIntervals none intervals).map fun interval =>
      ⟨z, x0, xEnd - 1, interval.1, interval.2⟩

def rangeOrder (left right : TileRange) : Prop :=
  left.z < right.z ∨ (left.z = right.z ∧ (left.x0 < right.x0 ∨
    (left.x0 = right.x0 ∧ left.y0 ≤ right.y0)))

instance : DecidableRel rangeOrder := fun left right =>
  inferInstanceAs (Decidable (left.z < right.z ∨ (left.z = right.z ∧
    (left.x0 < right.x0 ∨ (left.x0 = right.x0 ∧ left.y0 ≤ right.y0)))))

def disjointRanges (ranges : List TileRange) : List TileRange :=
  let slabs := (sortedDedup (ranges.map TileRange.z)).flatMap fun z =>
    let zoomRanges := ranges.filter fun range => decide (range.z = z)
    let boundaries := sortedDedup
      (zoomRanges.flatMap fun range => [range.x0, range.x1 + 1])
    (boundaries.zip boundaries.tail).flatMap fun pair =>
      slabRanges z zoomRanges pair.1 pair.2
  slabs.insertionSort rangeOrder

section Enumeration

variable (tileForLngLat : ℚ → ℚ → Nat → Nat × Nat)

/-- The rows grow southward, so that the north edge gives the first row. -/
def tileRect (clip : BBox) (z : Nat) : TileRange :=
  let northWest := tileForLngLat clip.west clip.north z
  let southEast := tileForLngLat clip.east clip.south z
  ⟨z, northWest.1, southEast.1, northWest.2, southEast.2⟩

def coveredRanges (source : ChartSource) (bbox : BBox) (zmin zmax : Nat) :
    List TileRange :=
  let boxes := clips source bbox
  let bounds := zoomBounds source zmin zmax
  if bounds.1 > bounds.2 ∨ boxes = [] then
    []
  else
    disjointRanges <|
      (List.range' bounds.1 (bounds.2 + 1 - bounds.1)).flatMap fun z =>
        boxes.map fun clip => tileRect tileForLngLat clip z

def tileCountInBbox (source : ChartSource) (bbox : BBox)
    (zmin zmax : Nat) : Nat :=
  ((coveredRanges tileForLngLat source bbox zmin zmax).map fun range =>
    (range.x1 + 1 - range.x0) * (range.y1 + 1 - range.y0)).sum

/-- The tiles of a range, column by column. -/
def TileRange.tiles (range : TileRange) : List (Nat × Nat × Nat) :=
  (List.range' range.x0 (range.x1 + 1 - range.x0)).flatMap fun x =>
    (List.range' range.y0 (range.y1 + 1 - range.y0)).map fun y =>
      (range.z, x, y)

def tilesIter (source : ChartSource) (bbox : BBox) (zmin zmax : Nat) :
    List (Nat × Nat × Nat) :=
  (coveredRanges tileForLngLat source bbox zmin zmax).flatMap TileRange.tiles

/-- The count which gates a warm is the length of its enumeration. -/
theorem length_tilesIter (source : ChartSource) (bbox : BBox)
    (zmin zmax : Nat) :
    (tilesIter tileForLngLat source bbox zmin zmax).length =
      tileCountInBbox tileForLngLat source bbox zmin zmax := by
  simp only [tilesIter, tileCountInBbox, List.length_flatMap]
  congr 1
  apply List.map_congr_left
  intro range _
  simp [TileRange.tiles, List.length_flatMap]

end Enumeration

end ChartLocker.Catalog
