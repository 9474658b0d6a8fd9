import ChartLocker.Cache.Operations
import ChartLocker.Catalog.Source
import Mathlib.Logic.Function.Basic

/-!
# The state behind the configuration and the styles

The part of `AppState` which `POST /config` and the style routes read and
write, over the durable cache.  Requests are tasks: a task is suspended at one
of its await points, and its record says at which one and with which locals.
The work which a task hands to a blocking thread is a job of its own, because
it goes on when the task is dropped.

The parser of style documents, the URL parser, the JSON encoder and the hash of
the catalog signature enter through `Environment`; the results hold for every
choice of them.  The document type is arbitrary as well.
-/

namespace ChartLocker.Config

open Library Cache Catalog

def maxConfigSources : Nat := 128

def maxScrollTtlSecs : Int := 365 * 86400

def maxLearnedStyleEntries : Nat := 4

def maxPersistedStyleBytes : Nat := 2 * (1024 * 1024)

def persistedStyleVersion : Nat := 1

variable (Document : Type)

/-- What `learn_style` extracts from a style document. -/
structure StyleContent where
  glyphs : Option String
  sourceTiles : List (String × List String)
  rasterSources : List String
  sourceMaxzoom : List (String × Nat)
  fontstacks : List String
  spriteBase : Option String
  document : Document

/-- `configGeneration` is the catalog generation which validated the entry,
`generation` the durable namespace in its cache keys. -/
structure StyleState where
  source : String
  content : StyleContent Document
  configGeneration : Nat
  generation : Nat
  fetchedAt : Int
  upstreamValidator : Option String

structure PersistedStyleState where
  version : Nat
  content : StyleContent Document
  generation : Nat
  fetchedAt : Int
  upstreamValidator : Option String

structure StoredLearnedStyle where
  source : String
  sourceSignature : String
  state : PersistedStyleState Document
  fetchedAt : Int

/-- What the configuration code calls and does not contain, and the knobs of
the deployment. -/
structure Environment where
  allowPrivateEgress : Bool
  freshSecs : Int
  capBytes : Int
  scrollTtlSecs : Int
  geocodingEnabled : Bool
  /-- `ChartSource::is_valid`. -/
  sourceValid : ChartSource → Bool → Bool
  /-- `style_source_signature`. -/
  sourceSignature : ChartSource → Option String
  /-- `style_url_allowed`. -/
  styleUrlAllowed : String → List String → Bool → Bool
  /-- The checks of `learn_style` on a document and its TileJSON answers. -/
  learnContent : List String → Document → (String → Option Document) →
    Option (StyleContent Document)
  /-- The length of `serde_json::to_vec`. -/
  encodedLength : PersistedStyleState Document → Nat
  /-- `valid_persisted_style`. -/
  validPersisted : PersistedStyleState Document → ChartSource → Bool → Bool

variable {Document}

def PersistedStyleState.fromLive (style : StyleState Document) :
    PersistedStyleState Document where
  version := persistedStyleVersion
  content := style.content
  generation := style.generation
  fetchedAt := style.fetchedAt
  upstreamValidator := style.upstreamValidator

def PersistedStyleState.intoLive (persisted : PersistedStyleState Document)
    (source : String) (configGeneration : Nat) : StyleState Document where
  source := source
  content := persisted.content
  configGeneration := configGeneration
  generation := persisted.generation
  fetchedAt := persisted.fetchedAt
  upstreamValidator := persisted.upstreamValidator

/-! ## The pushed body -/

structure ConfigBody where
  sources : List ChartSource
  publicBase : Option String
  capBytes : Option Int
  regionsBudgetBytes : Option Int
  positionWarmBudgetBytes : Option Int
  scrollTtlSecs : Option Int
  geocodingEnabled : Option Bool

inductive ConfigRejection where
  | tooManySources
  | tooManyStyleSources
  | invalidSource
  | invalidPublicBase
  | invalidBudget
  | invalidTtl
deriving DecidableEq, Repr

/-- `char::is_control`. -/
def isControl (char : Char) : Bool :=
  char.val < 0x20 || (0x7f ≤ char.val && char.val ≤ 0x9f)

/-- `char::is_whitespace`, the Unicode property `White_Space`. -/
def isWhitespace (char : Char) : Bool :=
  (0x9 ≤ char.val && char.val ≤ 0xd) || char.val == 0x20 ||
    char.val == 0x85 || char.val == 0xa0 || char.val == 0x1680 ||
    (0x2000 ≤ char.val && char.val ≤ 0x200a) || char.val == 0x2028 ||
    char.val == 0x2029 || char.val == 0x202f || char.val == 0x205f ||
    char.val == 0x3000

def invalidPublicBase (base : String) : Bool :=
  !startsWith base "/" || startsWith base "//" ||
    decide (base.utf8ByteSize > 512) ||
    base.toList.any (fun char => isControl char || isWhitespace char) ||
    base.toList.any fun char =>
      char == Char.ofNat 0x5c || char == '?' || char == '#'

/-- Some source is invalid or repeats the id of an earlier one. -/
def anyInvalidSource (valid : ChartSource → Bool) :
    List ChartSource → List String → Bool
  | [], _ => false
  | source :: rest, ids =>
      !valid source || decide (source.id ∈ ids) ||
        anyInvalidSource valid rest (source.id :: ids)

structure LiveKnobs where
  capBytes : Int
  regionsBudget : Int
  positionWarmBudget : Int
  scrollTtlSecs : Int
deriving DecidableEq, Repr

/-- The knobs of the body, each falling back to the live value. -/
def ConfigBody.knobs (body : ConfigBody) (live : LiveKnobs) : LiveKnobs where
  capBytes := body.capBytes.getD live.capBytes
  regionsBudget := body.regionsBudgetBytes.getD live.regionsBudget
  positionWarmBudget :=
    body.positionWarmBudgetBytes.getD live.positionWarmBudget
  scrollTtlSecs := body.scrollTtlSecs.getD live.scrollTtlSecs

def ConfigBody.rejection (env : Environment Document) (body : ConfigBody)
    (knobs : LiveKnobs) : Option ConfigRejection :=
  if body.sources.length > maxConfigSources then
    some .tooManySources
  else if anyInvalidSource
      (fun source => env.sourceValid source env.allowPrivateEgress)
      body.sources [] then
    some .invalidSource
  else if (body.sources.filter ChartSource.isStyle).length >
      maxLearnedStyleEntries then
    some .tooManyStyleSources
  else if body.publicBase.any invalidPublicBase then
    some .invalidPublicBase
  else if knobs.capBytes ≤ 0 ∨ knobs.regionsBudget < 0 ∨
      knobs.regionsBudget > knobs.capBytes ∨ knobs.positionWarmBudget < 0 ∨
      knobs.positionWarmBudget > knobs.regionsBudget then
    some .invalidBudget
  else if ¬ (0 ≤ knobs.scrollTtlSecs ∧
      knobs.scrollTtlSecs ≤ maxScrollTtlSecs) then
    some .invalidTtl
  else
    none

/-- The `HashMap` collected from the pushed sources. -/
def catalogOf (sources : List ChartSource) : KeyedTable ChartSource.id :=
  sources.foldl KeyedTable.insertOrReplace KeyedTable.empty

/-! ## Tasks and jobs -/

variable (Document)

/-- The await points of `config` and of `rehydrate_style_state` inside it. -/
inductive ConfigPhase where
  | waiting
  | enforcing (cap : Int)
  | writingSources
  | readingSources (published : Nat)
  | reconciling (published : Nat) (catalog : List ChartSource)
  | deletingInvalid (restored : List (StyleState Document))
  | installing (restored : List (StyleState Document))
  | publishing

/-- The await points of `learn_style`; `current` is the entry of the
generation which the call captured. -/
inductive LearnPhase where
  | resolving
  | reading (definition : ChartSource)
  | fetching (definition : ChartSource)
      (current : Option (StyleState Document))
  | refreshing (definition : ChartSource)
  | committing (definition : ChartSource)
      (current : Option (StyleState Document))
      (content : StyleContent Document) (validator : Option String)
  | persisting (style : StyleState Document)
  | storing

inductive Task where
  | config (body : ConfigBody) (phase : ConfigPhase Document)
  | learn (source : String) (generation : Nat) (phase : LearnPhase Document)
  | holder

/-- Work on a blocking thread. -/
inductive Work where
  | enforceCap (cap : Int)
  | reconcile (signatures : List (String × String))
  | deleteInvalid (sources : List String)
  | store (row : StoredLearnedStyle Document)

inductive JobResult where
  | applied
  | irreducible (pinnedBytes : Int)
  | failed
  | retained (rows : List (StoredLearnedStyle Document))

inductive Job where
  | pending (work : Work Document)
  | finished (result : JobResult Document)

/-- The upstream's answer to the style request. -/
inductive StyleAnswer where
  | failed
  | notModified
  | document (style : Document) (tilejson : String → Option Document)
      (validator : Option String)

/-- One style state which was put into the map by a learn, for the statements
about histories: the boot, the definition which was fetched and the
namespace.  `renewed` says that the namespace was chosen by this learn. -/
structure LearnRecord where
  boot : Nat
  source : String
  signature : Option String
  generation : Nat
  renewed : Bool
deriving DecidableEq, Repr

structure AppState where
  cache : TileCache
  learnedStyles :
    KeyedTable (@StoredLearnedStyle.source Document)
  sources : KeyedTable ChartSource.id
  publicBase : String
  styleState : KeyedTable (@StyleState.source Document)
  live : LiveKnobs
  geocodingEnabled : Bool
  configured : Bool
  configPushes : Nat
  configGeneration : Nat
  configUpdate : Option Nat
  tasks : Nat → Option (Task Document)
  jobs : Nat → Option (Job Document)
  boot : Nat
  learned : List LearnRecord

end ChartLocker.Config
