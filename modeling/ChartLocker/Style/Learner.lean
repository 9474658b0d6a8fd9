import ChartLocker.Config.Service
import ChartLocker.Library.Json

/-!
# Style documents

The checks of `learn_style` on an upstream style document with its TileJSON
answers, and those of `valid_persisted_style` on a record found in the cache.
The two are written separately; the last section says exactly which learned
styles the second accepts.

`HashMap` and `HashSet` values are lists of their entries here, compared as
sets where the source compares sets.
-/

namespace ChartLocker.Style

open Library Catalog Config

def maxStyleSources : Nat := 64

def maxStyleLayers : Nat := 2048

def maxFontstacks : Nat := 64

def maxFontstackBytes : Nat := 512

def maxTemplatesPerSource : Nat := 4

def maxStyleUrlBytes : Nat := 4096

def maxStyleSourceNameBytes : Nat := 256

def maxStyleJsonBytes : Nat := 1024 * 1024

def maxTileZoom : Nat := 24

/-- `str::contains`. -/
def containsText (text pattern : String) : Bool :=
  decide (pattern.toList <:+: text.toList)

def hasControl (text : String) : Bool :=
  text.toList.any isControl

def validStyleSourceName (name : String) : Bool :=
  name != "" && decide (name.utf8ByteSize ≤ maxStyleSourceNameBytes) &&
    !hasControl name

/-- `optional_maxzoom`; the outer `none` is an error. -/
def optionalMaxzoom : Option Json → Option (Option Nat)
  | none => some none
  | some value =>
      match value.asU64 with
      | some zoom => if zoom > maxTileZoom then none else some (some zoom)
      | none => none

/-- `tile_templates`; the outer `none` is an error. -/
def tileTemplates : Option Json → Option (Option (List String))
  | none => some none
  | some value =>
      match value.asArray with
      | some values =>
          if values = [] ∨ values.length > maxTemplatesPerSource then
            none
          else
            (values.mapM Json.asString).map some
      | none => none

def isRaster (source : Json) : Bool :=
  match (source.get "type").bind Json.asString with
  | some kind => kind == "raster" || kind == "raster-dem"
  | none => false

def declaresTiles (source : Json) : Bool :=
  (source.get "tiles").isSome || (source.get "url").isSome

/-- The font stack of one layer, joined. -/
def textFont (layer : Json) : Option String :=
  (((layer.get "layout").bind fun layout => layout.get "text-font").bind
    Json.asArray).map fun fonts =>
      ",".intercalate (fonts.filterMap Json.asString)

/-- The distinct font stacks of the layers; `none` when there are too many. -/
def learnFontstacks : List Json → List String → Option (List String)
  | [], found => some found
  | layer :: rest, found =>
      match textFont layer with
      | some joined =>
          if joined ≠ "" ∧ joined.utf8ByteSize ≤ maxFontstackBytes ∧
              joined ∉ found then
            if found.length + 1 > maxFontstacks then
              none
            else
              learnFontstacks rest (found ++ [joined])
          else
            learnFontstacks rest found
      | none => learnFontstacks rest found

section Checks

-- `style_url_allowed` for the hosts and the knob of one call.
variable (allowed : String → Bool)

def validGlyphs (url : String) : Bool :=
  allowed url && containsText url "{fontstack}" && containsText url "{range}"

def validTemplate (template : String) : Bool :=
  allowed template &&
    ["{z}", "{x}", "{y}"].all fun token => containsText template token

/-! ## `learn_style` -/

/-- The tiles which one source of the document names; `none` rejects the
document. -/
def sourceTemplates (tilejson : String → Option Json) (source : Json) :
    Option (List String × Option Nat) :=
  if (source.get "tiles").isSome then
    (tileTemplates (source.get "tiles")).join.map fun tiles => (tiles, none)
  else
    match (source.get "url").bind Json.asString with
    | some url =>
        if allowed url then
          (tilejson url).bind fun answer =>
            (tileTemplates (answer.get "tiles")).join.bind fun tiles =>
              (optionalMaxzoom (answer.get "maxzoom")).map fun maxzoom =>
                (tiles, maxzoom)
        else
          none
    | none => some ([], none)

/-- One iteration of the loop over the sources: the templates and the maximum
zoom, or nothing for a source without tiles; `none` rejects the document. -/
def learnSource (tilejson : String → Option Json) (source : Json) :
    Option (Option (List String × Option Nat)) :=
  (optionalMaxzoom (source.get "maxzoom")).bind fun inline =>
    (sourceTemplates allowed tilejson source).bind fun found =>
      if found.1 = [] then
        if declaresTiles source then none else some none
      else if found.1.length > maxTemplatesPerSource ∨
          found.1.all (validTemplate allowed) = false then
        none
      else
        some (some (found.1, inline.or found.2))

structure LearnedSources where
  sourceTiles : List (String × List String)
  rasterSources : List String
  sourceMaxzoom : List (String × Nat)

def LearnedSources.add (learned : LearnedSources) (name : String)
    (source : Json) (found : Option (List String × Option Nat)) :
    LearnedSources where
  sourceTiles :=
    (found.toList.map fun tiles => (name, tiles.1)) ++ learned.sourceTiles
  rasterSources :=
    if isRaster source then name :: learned.rasterSources
    else learned.rasterSources
  sourceMaxzoom :=
    ((found.bind Prod.snd).toList.map fun zoom => (name, zoom)) ++
      learned.sourceMaxzoom

def learnSources (tilejson : String → Option Json) (members : Json.Members) :
    List String → Option LearnedSources
  | [] => some ⟨[], [], []⟩
  | name :: rest =>
      if validStyleSourceName name then
        let source := (Json.member members name).getD .null
        (learnSource allowed tilejson source).bind fun found =>
          (learnSources tilejson members rest).map fun learned =>
            learned.add name source found
      else
        none

/-- The checks of `learn_style` on a fetched document. -/
def learnStyle (document : Json) (tilejson : String → Option Json) :
    Option (StyleContent Json) :=
  ((document.get "layers").bind Json.asArray).bind fun layers =>
  ((document.get "sources").bind Json.asObject).bind fun members =>
    let glyphs := (document.get "glyphs").bind Json.asString
    let sprite := (document.get "sprite").bind Json.asString
    if layers.length > maxStyleLayers ∨ members.rows = [] ∨
        members.rows.length > maxStyleSources then
      none
    else if glyphs.all (validGlyphs allowed) = false ∨
        sprite.all allowed = false then
      none
    else
      (learnFontstacks layers []).bind fun fontstacks =>
      (learnSources allowed tilejson members (Json.names members)).bind
        fun learned =>
          if learned.sourceTiles = [] then
            none
          else
            some
              { glyphs := glyphs
                sourceTiles := learned.sourceTiles
                rasterSources := learned.rasterSources
                sourceMaxzoom := learned.sourceMaxzoom
                fontstacks := fontstacks
                spriteBase := sprite
                document := document }

/-! ## `valid_persisted_style` -/

/-- The source whose tiles a record names is one of the document. -/
def hasTiles (sourceTiles : List (String × List String)) (name : String) :
    Bool :=
  sourceTiles.any fun entry => entry.1 == name

/-- The equality of two `HashSet`s. -/
def sameSet (left right : List String) : Bool :=
  left.all (fun name => right.contains name) &&
    right.all fun name => left.contains name

def validRecordSizes (documentLength : Json → Nat) (layers : List Json)
    (members : Json.Members) (persisted : PersistedStyleState Json) : Bool :=
  decide (persisted.version = persistedStyleVersion ∧
    persisted.generation % 2 = 0 ∧ 0 ≤ persisted.fetchedAt ∧
    layers.length ≤ maxStyleLayers ∧ members.rows ≠ [] ∧
    members.rows.length ≤ maxStyleSources ∧
    persisted.content.sourceTiles ≠ [] ∧
    persisted.content.sourceTiles.length ≤ maxStyleSources ∧
    persisted.content.fontstacks.length ≤ maxFontstacks) &&
  persisted.content.fontstacks.all (fun fontstack =>
    fontstack != "" && decide (fontstack.utf8ByteSize ≤ maxFontstackBytes) &&
      !hasControl fontstack) &&
  persisted.upstreamValidator.all (fun validator =>
    decide (validator.utf8ByteSize ≤ maxStyleUrlBytes)) &&
  decide (documentLength persisted.content.document ≤ maxStyleJsonBytes)

def validRecordUrls (content : StyleContent Json) : Bool :=
  decide ((content.document.get "glyphs").bind Json.asString =
    content.glyphs) &&
  decide ((content.document.get "sprite").bind Json.asString =
    content.spriteBase) &&
  content.glyphs.all (validGlyphs allowed) && content.spriteBase.all allowed

def validRecordSources (members : Json.Members)
    (content : StyleContent Json) : Bool :=
  content.sourceTiles.all (fun entry =>
    validStyleSourceName entry.1 &&
      (Json.member members entry.1).isSome &&
      decide (entry.2 ≠ [] ∧ entry.2.length ≤ maxTemplatesPerSource) &&
      entry.2.all (validTemplate allowed)) &&
  members.rows.all (fun entry =>
    !declaresTiles entry.2 || hasTiles content.sourceTiles entry.1) &&
  sameSet
    ((content.sourceTiles.map Prod.fst).filter fun name =>
      ((Json.member members name).map isRaster).getD false)
    content.rasterSources &&
  content.sourceMaxzoom.all fun entry =>
    hasTiles content.sourceTiles entry.1 && decide (entry.2 ≤ maxTileZoom)

end Checks

def validPersistedStyle (documentLength : Json → Nat)
    (styleUrlAllowed : String → List String → Bool → Bool)
    (persisted : PersistedStyleState Json) (source : ChartSource)
    (allowHttp : Bool) : Bool :=
  match source.upstream with
  | .style _ hosts =>
      let allowed := fun url => styleUrlAllowed url hosts allowHttp
      match (persisted.content.document.get "layers").bind Json.asArray,
          (persisted.content.document.get "sources").bind Json.asObject with
      | some layers, some members =>
          validRecordSizes documentLength layers members persisted &&
            validRecordUrls allowed persisted.content &&
            validRecordSources allowed members persisted.content
      | _, _ => false
  | _ => false

end ChartLocker.Style
