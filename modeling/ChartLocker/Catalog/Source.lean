import Mathlib.Data.Rat.Defs
import Mathlib.Data.List.Basic

/-!
# Chart sources

The catalog entries of `source.rs` as the plugin pushes them.  A coordinate is
a finite `f64` of the JSON payload and is modelled by the rational number
which it denotes.
-/

namespace ChartLocker.Catalog

/-- `[west, south, east, north]`. -/
structure BBox where
  west : ℚ
  south : ℚ
  east : ℚ
  north : ℚ
deriving DecidableEq

inductive UpstreamTemplate where
  | xyz (urlTemplate : String)
  | wmts (urlTemplate : String)
  | wms (base layers styles version format : String) (transparent : Bool)
  | arcgis (base : String)
  | style (styleUrl : String) (allowedHosts : List String)
deriving DecidableEq

structure ChartSource where
  id : String
  title : String
  upstream : UpstreamTemplate
  tileSize : Nat
  minzoom : Nat
  maxzoom : Nat
  vectorMaxzoom : Option Nat
  bounds : Option BBox
  coverage : Option (List BBox)
  maxAgeSeconds : Option Nat
  attribution : String
deriving DecidableEq

namespace ChartSource

def isStyle (source : ChartSource) : Bool :=
  match source.upstream with
  | .style _ _ => true
  | _ => false

def isVolatile (source : ChartSource) : Bool :=
  source.maxAgeSeconds.isSome

def i64Max : Int := 9223372036854775807

/-- `i64::try_from(ttl).unwrap_or(i64::MAX)`. -/
def clampedToTtl (source : ChartSource) (defaultSecs : Int) : Int :=
  match source.maxAgeSeconds with
  | some ttl => min defaultSecs (min ttl i64Max)
  | none => defaultSecs

def freshSecs (source : ChartSource) (defaultSecs : Int) : Int :=
  source.clampedToTtl defaultSecs

def maxStaleSecs (source : ChartSource) (defaultSecs : Int) : Int :=
  source.clampedToTtl defaultSecs

end ChartSource

end ChartLocker.Catalog
