import ChartLocker.Catalog.Source
import ChartLocker.Library.Text
import Mathlib.Algebra.GroupWithZero.Nat

/-!
# Upstream URLs

`expand_upstream` of `upstream.rs`: the URL of a tile of a source, or the text
of the rejection.  The bounding box of a tile is formatted floating-point
arithmetic and enters as an argument.
-/

namespace ChartLocker.Catalog

open Library

def inRange (source : ChartSource) (z x y : Nat) : Except String Unit :=
  if z < source.minzoom ∨ z > source.maxzoom then
    .error ("z " ++ z.repr ++ " out of range for " ++ source.id)
  else
    -- `1u64.checked_shl(z).unwrap_or(0)`
    let span := if z < 64 then 2 ^ z else 0
    if x ≥ span ∨ y ≥ span then
      .error ("x/y " ++ x.repr ++ "/" ++ y.repr ++ " out of range at z " ++
        z.repr)
    else
      .ok ()

/-- The replacements in a template, one token after the other. -/
def expandTemplate (template : String) (z x y : Nat) : String :=
  Text.replace (Text.replace (Text.replace template "{z}" z.repr) "{x}"
    x.repr) "{y}" y.repr

/-- `str::trim_end_matches('/')`. -/
def withoutTrailingSlashes (base : String) : String :=
  String.ofList (base.toList.reverse.dropWhile (· = '/')).reverse

section Expand

variable (bboxStr : Nat → Nat → Nat → String)

def expandUpstream (source : ChartSource) (z x y : Nat) :
    Except String String :=
  match source.upstream with
  | .xyz urlTemplate | .wmts urlTemplate =>
      (inRange source z x y).map fun _ => expandTemplate urlTemplate z x y
  | .wms base layers styles version format transparent =>
      (inRange source z x y).map fun _ =>
        withoutTrailingSlashes base ++ "?SERVICE=WMS&VERSION=" ++ version ++
          "&REQUEST=GetMap&LAYERS=" ++ layers ++ "&CRS=EPSG:3857&BBOX=" ++
          bboxStr z x y ++ "&WIDTH=" ++ source.tileSize.repr ++ "&HEIGHT=" ++
          source.tileSize.repr ++ "&FORMAT=" ++ format ++ "&TRANSPARENT=" ++
          toString transparent ++ "&STYLES=" ++ styles
  | .arcgis base =>
      (inRange source z x y).map fun _ =>
        withoutTrailingSlashes base ++ "/export?bbox=" ++ bboxStr z x y ++
          "&bboxSR=3857&imageSR=3857&size=" ++ source.tileSize.repr ++ "," ++
          source.tileSize.repr ++
          "&dpi=96&format=png32&transparent=true&f=image"
  | .style _ _ =>
      .error (source.id ++ " is a style source, not a tile source")

variable {bboxStr} {source : ChartSource} {z x y : Nat}

theorem inRange_eq_ok : inRange source z x y = .ok () ↔
    source.minzoom ≤ z ∧ z ≤ source.maxzoom ∧ z < 64 ∧ x < 2 ^ z ∧
      y < 2 ^ z := by
  unfold inRange
  dsimp only
  split
  · next outside =>
    constructor
    · exact nofun
    · omega
  · next inside =>
    by_cases small : z < 64
    · rw [if_pos small]
      split
      · next beyond =>
        constructor
        · exact nofun
        · omega
      · next within =>
        constructor
        · omega
        · exact fun _ => rfl
    · rw [if_neg small, if_pos (.inl (Nat.zero_le x))]
      constructor
      · exact nofun
      · omega

/-- A URL is built for the tiles in range of a source which is no style. -/
theorem expandUpstream_ok_iff :
    (∃ url, expandUpstream bboxStr source z x y = .ok url) ↔
      source.isStyle = false ∧ inRange source z x y = .ok () := by
  unfold expandUpstream ChartSource.isStyle
  cases source.upstream <;> cases inRange source z x y <;>
    simp [Except.map]

end Expand

end ChartLocker.Catalog
