import ChartLocker.Config.State
import ChartLocker.Library.Trimming

/-!
# Content that may be stored and served

The media type checks of the tile routes, of the style routes and of the warm
engine.  Whether a sprite index parses as a JSON object is an argument.
-/

namespace ChartLocker.Warm

open Cache

/-- `str::trim`. -/
def trim (text : List Char) : List Char :=
  Library.Trimming.trimBy Config.isWhitespace text

/-- `ct.split(';').next().trim().to_ascii_lowercase()`. -/
def mediaType (contentType : String) : List Char :=
  (trim (contentType.toList.takeWhile fun char => char != ';')).map
    Char.toLower

def hasMediaType (contentType : String) (accepted : List String) : Bool :=
  accepted.any fun candidate =>
    decide (candidate.toList = mediaType contentType)

def acceptableContentType (contentType : String) : Bool :=
  hasMediaType contentType
    ["image/png", "image/jpeg", "image/webp", "image/avif",
      "application/x-protobuf", "application/vnd.mapbox-vector-tile"]

def isSafeCached200 (tile : CachedTile) : Bool :=
  decide (tile.status = 200) && acceptableContentType tile.contentType

inductive StyleAssetKind where
  | glyph
  | spriteJson
  | spritePng
  | vectorTile
  | rasterTile
deriving DecidableEq, Repr

def maxSpriteJsonBytes : Nat := 1024 * 1024

def validStyleAsset (isJsonObject : Blob → Bool) (kind : StyleAssetKind)
    (contentType : String) (body : Blob) : Bool :=
  match kind with
  | .glyph | .vectorTile =>
      hasMediaType contentType
        ["application/x-protobuf", "application/vnd.mapbox-vector-tile"]
  | .rasterTile =>
      hasMediaType contentType ["image/png", "image/webp", "image/jpeg"]
  | .spritePng => hasMediaType contentType ["image/png"]
  | .spriteJson =>
      hasMediaType contentType ["application/json"] &&
        decide (body.length ≤ maxSpriteJsonBytes) && isJsonObject body

end ChartLocker.Warm
