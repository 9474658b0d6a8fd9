import ChartLocker.Library.EcmaValues
import Mathlib.Data.List.Nodup

/-!
# The regions store

What `regions-store.ts` makes of the value which it has parsed, and the value
which it writes.  A type guard is a function to the narrowed value.
-/

namespace ChartLocker.Plugin.Regions

open Library Ecma

/-! ## The store -/

/-- Corners in the order of `LngLatBbox`. -/
structure RegionBbox where
  west : ℚ
  south : ℚ
  east : ℚ
  north : ℚ
deriving DecidableEq, Repr

structure PositionWarmSettings where
  enabled : Bool
  radiusMeters : ℚ
  moveThresholdMeters : ℚ
  intervalSecs : ℚ
  baseZoom : ℚ
  sources : List Text
deriving DecidableEq, Repr

inductive RegionStatus where
  | downloading
  | ready
  | capped
  | error
  | needsRedownload
deriving DecidableEq, Repr

structure SavedRegion where
  id : Text
  name : Text
  bbox : RegionBbox
  sourceIds : List Text
  minzoom : ℚ
  maxzoom : ℚ
  createdAt : ℚ
  lastDownloadedAt : Option ℚ
  bytes : ℚ
  status : RegionStatus
deriving DecidableEq, Repr

structure RegionsStore where
  regions : List SavedRegion
  positionWarm : PositionWarmSettings
  cacheScrollTtlDays : ℚ
deriving DecidableEq, Repr

/-- `DEFAULT_REGIONS_STORE`. -/
def defaultRegionsStore : RegionsStore where
  regions := []
  positionWarm :=
    { enabled := true
      radiusMeters := 3704
      moveThresholdMeters := 1852
      intervalSecs := 60
      baseZoom := 12
      sources := [] }
  cacheScrollTtlDays := 30

def maxWarmZoom : ℚ := 24

def maxSourceIds : ℕ := 64

def maxSourceIdLength : ℕ := 256

def maxRegionNameLength : ℕ := 120

def maxRegionIdLength : ℕ := 128

def maxSavedRegions : ℕ := 128

/-- `Number.MAX_SAFE_INTEGER`. -/
def maxSafeInteger : ℚ := 9007199254740991

namespace RegionStatus

def all : List RegionStatus :=
  [downloading, ready, capped, error, needsRedownload]

def text : RegionStatus → Text
  | downloading => utf16 "downloading"
  | ready => utf16 "ready"
  | capped => utf16 "capped"
  | error => utf16 "error"
  | needsRedownload => utf16 "needs-redownload"

/-- The status which a text names, a member of `REGION_STATUSES`. -/
def ofText (text : Text) : Option RegionStatus :=
  all.find? fun status => status.text = text

@[simp] theorem ofText_text (status : RegionStatus) :
    ofText status.text = some status := by
  cases status
  all_goals decide

end RegionStatus

/-- The settings which have a range in `POSITION_WARM_RANGES`. -/
inductive PositionWarmRange where
  | radiusMeters
  | moveThresholdMeters
  | intervalSecs
deriving DecidableEq, Repr

namespace PositionWarmRange

def name : PositionWarmRange → String
  | radiusMeters => "radiusMeters"
  | moveThresholdMeters => "moveThresholdMeters"
  | intervalSecs => "intervalSecs"

def min : PositionWarmRange → ℕ
  | radiusMeters => 1
  | moveThresholdMeters => 0
  | intervalSecs => 60

def max : PositionWarmRange → ℕ
  | radiusMeters => 100000
  | moveThresholdMeters => 100000
  | intervalSecs => 86400

end PositionWarmRange

/-! ## Texts -/

/-- C0, DEL, C1 and the separators of Unicode.  No unit of a surrogate pair
is among them. -/
def controlUnit (unit : UInt16) : Bool :=
  decide (unit.toNat ≤ 0x1f) ||
    (decide (0x7f ≤ unit.toNat) && decide (unit.toNat ≤ 0x9f)) ||
    unit.toNat == 0x2028 || unit.toNat == 0x2029

def hasControlUnit (value : Text) : Bool :=
  value.any controlUnit

/-- `normalizePrintableText`, which refuses the empty text. -/
def normalizePrintableText (value : Option Value) (maxLength : ℕ) :
    Option Text :=
  (asText value).bind fun text =>
    if hasControlUnit text then
      none
    else
      let normalized := trim text
      if normalized.length = 0 ∨ normalized.length > maxLength then
        none
      else
        some normalized

/-! ## Guards -/

/-- `Math.abs(west - east) === 360`.  The difference is rounded to a double,
and 360 is the nearest one up to half of their distance. -/
def spansGlobe (west east : ℚ) : Bool :=
  decide (|(|west - east| - 360)| ≤ 1 / 2 ^ 45)

def RegionBbox.isValid (bbox : RegionBbox) : Bool :=
  decide (-180 ≤ bbox.west) && decide (bbox.west ≤ 180) &&
    decide (-180 ≤ bbox.east) && decide (bbox.east ≤ 180) &&
    decide (-90 ≤ bbox.south) && decide (bbox.south ≤ 90) &&
    decide (-90 ≤ bbox.north) && decide (bbox.north ≤ 90) &&
    decide (bbox.west ≠ bbox.east) &&
    !(decide (bbox.west > bbox.east) && spansGlobe bbox.west bbox.east) &&
    decide (bbox.south < bbox.north)

/-- `isValidRegionBbox`. -/
def isValidRegionBbox (value : Option Value) : Option RegionBbox :=
  match value with
  | some (.array [west, south, east, north]) =>
      match asFinite (some west), asFinite (some south),
        asFinite (some east), asFinite (some north) with
      | some west, some south, some east, some north =>
          let bbox : RegionBbox := ⟨west, south, east, north⟩
          if bbox.isValid then some bbox else none
      | _, _, _, _ => none
  | _ => none

/-- A source identifier by itself. -/
def isSourceText (source : Text) : Bool :=
  decide (trim source = source) && decide (source.length > 0) &&
    decide (source.length ≤ maxSourceIdLength) && !hasControlUnit source

/-- The strings of an array, when it has nothing else. -/
def textArray (value : Option Value) : Option (List Text) :=
  match value with
  | some (.array values) =>
      if values.all fun value => (asText (some value)).isSome then
        some (values.filterMap fun value => asText (some value))
      else
        none
  | _ => none

/-- `validSources`. -/
def validSources (value : Option Value) : Option (List Text) :=
  (textArray value).filter fun sources =>
    decide (sources.length ≤ maxSourceIds) && sources.all isSourceText &&
      decide sources.Nodup

def inPositionWarmRange (key : PositionWarmRange) (value : Option Value) :
    Option ℚ :=
  finiteBetween key.min key.max value

def warmZoom (value : Option Value) : Option ℚ :=
  integerBetween 0 maxWarmZoom value

def ttlDays (value : Option Value) : Option ℚ :=
  integerBetween 0 365 value

def safeCount (value : Option Value) : Option ℚ :=
  integerBetween 0 maxSafeInteger value

/-! ## Normalization -/

/-- A member of a value which may be missing or no object. -/
def field (value : Option Value) (name : String) : Option Value :=
  value.bind fun value => value.get name

def normalizePositionWarm (value : Option Value) : PositionWarmSettings :=
  let defaults := defaultRegionsStore.positionWarm
  { enabled := (asBool (field value "enabled")).getD defaults.enabled
    radiusMeters :=
      (inPositionWarmRange .radiusMeters (field value "radiusMeters")).getD
        defaults.radiusMeters
    moveThresholdMeters :=
      (inPositionWarmRange .moveThresholdMeters
        (field value "moveThresholdMeters")).getD defaults.moveThresholdMeters
    intervalSecs :=
      (inPositionWarmRange .intervalSecs (field value "intervalSecs")).getD
        defaults.intervalSecs
    baseZoom := (warmZoom (field value "baseZoom")).getD defaults.baseZoom
    sources := (validSources (field value "sources")).getD defaults.sources }

/-- The identifier of a region, which must not be taken. -/
def regionId (value : Option Value) (ids : List Text) : Option Text :=
  (asText value).filter fun id =>
    decide (id.length ≠ 0) && decide (id.length ≤ maxRegionIdLength) &&
      !hasControlUnit id && decide (id ∉ ids)

/-- `null` or a count of seconds. -/
def downloadTime (value : Option Value) : Option (Option ℚ) :=
  match value with
  | some .null => some none
  | value => (safeCount value).map some

/-- `parseRegionState`.  The caller adds the identifier to `ids`. -/
def parseRegionState (raw : Value) (ids : List Text) : Option SavedRegion := do
  let name ← normalizePrintableText (raw.get "name") maxRegionNameLength
  let id ← regionId (raw.get "id") ids
  let bbox ← isValidRegionBbox (raw.get "bbox")
  let sourceIds ← (validSources (raw.get "sourceIds")).filter fun sources =>
    decide (sources.length ≠ 0)
  let minzoom ← warmZoom (raw.get "minzoom")
  let maxzoom ← integerBetween minzoom maxWarmZoom (raw.get "maxzoom")
  let createdAt ← safeCount (raw.get "createdAt")
  let lastDownloadedAt ← downloadTime (raw.get "lastDownloadedAt")
  let bytes ← safeCount (raw.get "bytes")
  let status ← (asText (raw.get "status")).bind RegionStatus.ofText
  return { id, name, bbox, sourceIds, minzoom, maxzoom, createdAt,
           lastDownloadedAt, bytes, status }

/-- The loop of `normalizeRegions`. -/
def collectRegions (ids : List Text) (regions : List SavedRegion) :
    List Value → List SavedRegion
  | [] => regions
  | raw :: rest =>
      if regions.length ≥ maxSavedRegions then
        regions
      else
        match parseRegionState raw ids with
        | some region =>
            collectRegions (region.id :: ids) (regions ++ [region]) rest
        | none => collectRegions ids regions rest

def normalizeRegions (value : Option Value) : List SavedRegion :=
  match value with
  | some (.array values) => collectRegions [] [] values
  | _ => []

def normalizeTtlDays (value : Option Value) : ℚ :=
  (ttlDays value).getD defaultRegionsStore.cacheScrollTtlDays

/-! ## Corruption -/

/-- A member which is missing or passes its guard. -/
def absentOr {α : Type} (guard : Option Value → Option α)
    (value : Option Value) : Bool :=
  value.isNone || (guard value).isSome

def validPositionWarmState (value : Option Value) : Bool :=
  match value with
  | none => true
  | some raw =>
      raw.isObject && absentOr asBool (raw.get "enabled") &&
        absentOr (inPositionWarmRange .radiusMeters)
          (raw.get "radiusMeters") &&
        absentOr (inPositionWarmRange .moveThresholdMeters)
          (raw.get "moveThresholdMeters") &&
        absentOr (inPositionWarmRange .intervalSecs)
          (raw.get "intervalSecs") &&
        absentOr warmZoom (raw.get "baseZoom") &&
        absentOr validSources (raw.get "sources")

/-- Every region parses, in the loop of `hasSemanticCorruption`. -/
def allRegionsParse (ids : List Text) : List Value → Bool
  | [] => true
  | raw :: rest =>
      match parseRegionState raw ids with
      | some region => allRegionsParse (region.id :: ids) rest
      | none => false

def corruptRegions (value : Option Value) : Bool :=
  match value with
  | none => false
  | some (.array values) =>
      decide (values.length > maxSavedRegions) || !allRegionsParse [] values
  | some _ => true

/-- The last test compares `normalizeTtlDays` with the member itself. -/
def hasSemanticCorruption (raw : Value) : Bool :=
  corruptRegions (raw.get "regions") ||
    !validPositionWarmState (raw.get "positionWarm") ||
    !absentOr ttlDays (raw.get "cacheScrollTtlDays")

/-! ## Loading -/

/-- What `randomUUID` gives. -/
structure Uuid where
  text : Text
  length_eq : text.length = 36
  plain : ∀ unit ∈ text, 0x20 < unit.toNat ∧ unit.toNat < 0x7f

/-- What `Date.now` gives, a time value of ECMAScript. -/
structure DateNow where
  milliseconds : ℕ
  bounded : milliseconds ≤ 8640000000000000

def nowUnixSecs (now : DateNow) : ℚ :=
  (now.milliseconds / 1000 : ℕ)

/-- A shape of version 2. -/
def isLegacy (raw : Value) : Bool :=
  (raw.get "bbox").isSome || (raw.get "sources").isSome

def hasRegions (raw : Value) : Bool :=
  match raw.get "regions" with
  | some (.array _) => true
  | _ => false

def rawMinzoom (raw : Value) : ℚ :=
  (warmZoom (raw.get "minzoom")).getD 6

def rawMaxzoom (raw : Value) : ℚ :=
  (integerBetween (rawMinzoom raw) maxWarmZoom (raw.get "maxzoom")).getD 12

/-- The box and the sources of version 2, when they become a region. -/
def legacyBox (raw : Value) : Option (RegionBbox × List Text) :=
  if hasRegions raw then
    none
  else
    match isValidRegionBbox (raw.get "bbox"),
      (validSources (raw.get "sources")).filter fun sources =>
        decide (sources.length > 0) with
    | some bbox, some sources => some (bbox, sources)
    | _, _ => none

def migratedRegion (raw : Value) (uuid : Uuid) (now : DateNow)
    (bbox : RegionBbox) (sources : List Text) : SavedRegion where
  id := uuid.text
  name := utf16 "Downloaded region"
  bbox := bbox
  sourceIds := sources
  minzoom := rawMinzoom raw
  maxzoom := rawMaxzoom raw
  createdAt := nowUnixSecs now
  lastDownloadedAt := none
  bytes := 0
  status := .needsRedownload

/-- The store of `migrateV2`. -/
def migrateV2 (raw : Value) (uuid : Uuid) (now : DateNow) : RegionsStore where
  regions :=
    (if hasRegions raw then normalizeRegions (raw.get "regions") else []) ++
      ((legacyBox raw).map fun box =>
        migratedRegion raw uuid now box.1 box.2).toList
  positionWarm := normalizePositionWarm (raw.get "positionWarm")
  cacheScrollTtlDays := normalizeTtlDays (raw.get "cacheScrollTtlDays")

def normalizeStore (raw : Value) : RegionsStore where
  regions := normalizeRegions (raw.get "regions")
  positionWarm := normalizePositionWarm (raw.get "positionWarm")
  cacheScrollTtlDays := normalizeTtlDays (raw.get "cacheScrollTtlDays")

/-- The store which `loadRegionsStore` returns for a root. -/
def storeOf (raw : Value) (uuid : Uuid) (now : DateNow) : RegionsStore :=
  if isLegacy raw then migrateV2 raw uuid now else normalizeStore raw

/-! ## Writing -/

def textValues (texts : List Text) : Value :=
  .array (texts.map .string)

def RegionBbox.toValue (bbox : RegionBbox) : Value :=
  .array [.ofRat bbox.west, .ofRat bbox.south, .ofRat bbox.east,
    .ofRat bbox.north]

namespace SavedRegion

def toValue (region : SavedRegion) : Value :=
  .object
    [("id", .string region.id),
      ("name", .string region.name),
      ("bbox", region.bbox.toValue),
      ("sourceIds", textValues region.sourceIds),
      ("minzoom", .ofRat region.minzoom),
      ("maxzoom", .ofRat region.maxzoom),
      ("createdAt", .ofRat region.createdAt),
      ("lastDownloadedAt", region.lastDownloadedAt.elim .null .ofRat),
      ("bytes", .ofRat region.bytes),
      ("status", .string region.status.text)]

end SavedRegion

def PositionWarmSettings.toValue (settings : PositionWarmSettings) : Value :=
  .object
    [("enabled", .bool settings.enabled),
      ("radiusMeters", .ofRat settings.radiusMeters),
      ("moveThresholdMeters", .ofRat settings.moveThresholdMeters),
      ("intervalSecs", .ofRat settings.intervalSecs),
      ("baseZoom", .ofRat settings.baseZoom),
      ("sources", textValues settings.sources)]

/-- The value which `JSON.stringify` writes and `JSON.parse` reads back. -/
def RegionsStore.toValue (store : RegionsStore) : Value :=
  .object
    [("regions", .array (store.regions.map SavedRegion.toValue)),
      ("positionWarm", store.positionWarm.toValue),
      ("cacheScrollTtlDays", .ofRat store.cacheScrollTtlDays)]

end ChartLocker.Plugin.Regions
