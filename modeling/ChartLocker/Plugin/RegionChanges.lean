import ChartLocker.Plugin.RegionsReload

/-!
# Changes of the regions store

What the routes accept, in `regions-routes.ts`, and what they and the start of
the plugin make of the stored regions and settings.  The catalog of sources is
a parameter.
-/

namespace ChartLocker.Plugin.Regions

open Library Ecma

/-! ## The catalog -/

structure ChartSource where
  maxAgeSeconds : Option ℕ
deriving DecidableEq, Repr

abbrev SourceLookup : Type := Text → Option ChartSource

def isWarmableSource (source : ChartSource) : Bool :=
  source.maxAgeSeconds.isNone

def timeDynamicSourceIds (ids : List Text) (lookup : SourceLookup) :
    List Text :=
  ids.filter fun id => (lookup id).any fun source => !isWarmableSource source

/-- The identifiers of the catalog have no control characters and no white
space around them. -/
def HasPlainIds (lookup : SourceLookup) : Prop :=
  ∀ id, (lookup id).isSome = true →
    trim id = id ∧ hasControlUnit id = false

/-! ## Requests -/

/-- The identifiers joined by commas. -/
def timeDynamicRejection (ids : List Text) : Text :=
  utf16 "these sources are time-dynamic and are never stored offline: " ++
    (utf16 ", ").intercalate ids

def validSourceIds (value : Option Value) (allowEmpty : Bool)
    (sourceById : SourceLookup) : Option (List Text) :=
  (textArray value).filter fun sources =>
    decide (sources.length ≤ maxSourceIds) &&
      (allowEmpty || decide (sources.length ≠ 0)) &&
      sources.all (fun source => decide (source.length > 0) &&
        decide (source.length ≤ maxSourceIdLength)) &&
      decide sources.Nodup &&
      sources.all fun source => (sourceById source).isSome

structure PositionWarmPatch where
  enabled : Option Bool
  radiusMeters : Option ℚ
  moveThresholdMeters : Option ℚ
  intervalSecs : Option ℚ
  baseZoom : Option ℚ
  sources : Option (List Text)
deriving DecidableEq, Repr

/-- A member which is missing is not patched. -/
def patched {α : Type} (raw : Value) (name : String)
    (guard : Option Value → Option α) (message : Text) :
    Except Text (Option α) :=
  match raw.get name with
  | none => .ok none
  | some member =>
      match guard (some member) with
      | some narrowed => .ok (some narrowed)
      | none => .error message

def patchedRange (raw : Value) (key : PositionWarmRange) :
    Except Text (Option ℚ) :=
  patched raw key.name (inPositionWarmRange key)
    (utf16 (key.name ++ " must be a finite number between " ++
      toString key.min ++ " and " ++ toString key.max))

def patchedSources (raw : Value) (sourceById : SourceLookup) :
    Except Text (Option (List Text)) := do
  let sources ← patched raw "sources"
    (fun value => validSourceIds value true sourceById)
    (utf16 "sources must be a unique array of valid source IDs")
  let timeDynamic := timeDynamicSourceIds (sources.getD []) sourceById
  if timeDynamic.length > 0 then
    .error (timeDynamicRejection timeDynamic)
  else
    .ok sources

def readPositionWarmPatch (value : Option Value) (sourceById : SourceLookup) :
    Except Text PositionWarmPatch :=
  match value with
  | some (.object members) => do
      let raw : Value := .object members
      let enabled ← patched raw "enabled" asBool
        (utf16 "enabled must be a boolean")
      let radiusMeters ← patchedRange raw .radiusMeters
      let moveThresholdMeters ← patchedRange raw .moveThresholdMeters
      let intervalSecs ← patchedRange raw .intervalSecs
      let baseZoom ← patched raw "baseZoom" warmZoom
        (utf16 "baseZoom must be an integer between 0 and 24")
      let sources ← patchedSources raw sourceById
      return { enabled, radiusMeters, moveThresholdMeters, intervalSecs,
               baseZoom, sources }
  | _ => .error (utf16 "positionWarm must be an object")

def PositionWarmSettings.apply (settings : PositionWarmSettings)
    (patch : PositionWarmPatch) : PositionWarmSettings where
  enabled := patch.enabled.getD settings.enabled
  radiusMeters := patch.radiusMeters.getD settings.radiusMeters
  moveThresholdMeters :=
    patch.moveThresholdMeters.getD settings.moveThresholdMeters
  intervalSecs := patch.intervalSecs.getD settings.intervalSecs
  baseZoom := patch.baseZoom.getD settings.baseZoom
  sources := patch.sources.getD settings.sources

/-- The body of `POST /api/position-warm/config`. -/
def positionWarmConfig (body : Option Value) (sourceById : SourceLookup) :
    Except Text PositionWarmPatch :=
  match field body "positionWarm" with
  | none => .error (utf16 "positionWarm is required")
  | some settings => readPositionWarmPatch (some settings) sourceById

/-- The body of `POST /api/cache/config`. -/
def cacheConfig (body : Option Value) : Except Text ℚ :=
  match ttlDays (field body "ttlDays") with
  | none => .error (utf16 "ttlDays must be an integer between 0 and 365")
  | some days => .ok days

def invalidRegion : Text :=
  utf16 <| "bbox must be within world bounds; sourceIds must be non-empty " ++
    "and unique; zooms must be integers from 0 to 24; name must be 1 to " ++
    "120 printable characters"

/-- What is asked for in the body of `POST /api/regions`. -/
structure RegionRequest where
  name : Text
  bbox : RegionBbox
  sourceIds : List Text
  minzoom : ℚ
  maxzoom : ℚ
deriving DecidableEq, Repr

/-- The conditions of one message. -/
def regionBody (body : Option Value) (sourceById : SourceLookup) :
    Option RegionRequest := do
  let name ← normalizePrintableText (field body "name") maxRegionNameLength
  let bbox ← isValidRegionBbox (field body "bbox")
  let sourceIds ← validSourceIds (field body "sourceIds") false sourceById
  let minzoom ← warmZoom (field body "minzoom")
  let maxzoom ← (warmZoom (field body "maxzoom")).filter fun maxzoom =>
    decide (minzoom ≤ maxzoom)
  return { name, bbox, sourceIds, minzoom, maxzoom }

def regionRequest (body : Option Value) (sourceById : SourceLookup) :
    Except Text RegionRequest :=
  match regionBody body sourceById with
  | none => .error invalidRegion
  | some request =>
      let timeDynamic := timeDynamicSourceIds request.sourceIds sourceById
      if timeDynamic.length > 0 then
        .error (timeDynamicRejection timeDynamic)
      else
        .ok request

/-- The region which `POST /api/regions` saves. -/
def RegionRequest.region (request : RegionRequest) (uuid : Uuid)
    (now : DateNow) : SavedRegion where
  id := uuid.text
  name := request.name
  bbox := request.bbox
  sourceIds := request.sourceIds
  minzoom := request.minzoom
  maxzoom := request.maxzoom
  createdAt := nowUnixSecs now
  lastDownloadedAt := none
  bytes := 0
  status := .downloading

/-- What the routes update of a region. -/
structure RegionPatch where
  status : Option RegionStatus
  lastDownloadedAt : Option ℚ
  bytes : Option ℚ
deriving DecidableEq, Repr

def SavedRegion.apply (region : SavedRegion) (patch : RegionPatch) :
    SavedRegion :=
  { region with
    status := patch.status.getD region.status
    lastDownloadedAt := patch.lastDownloadedAt.or region.lastDownloadedAt
    bytes := patch.bytes.getD region.bytes }

/-- The patch of `reconcile`, for a record which was read before the container
was asked for the bytes. -/
def reconcilePatch (region : SavedRegion) (status : RegionStatus)
    (response : Option Value) (now : DateNow) : RegionPatch :=
  let finished := region.status ≠ status ∨ region.lastDownloadedAt = none
  { status := if finished then some status else none
    lastDownloadedAt := if finished then some (nowUnixSecs now) else none
    bytes := (safeCount (field response "bytes")).filter fun bytes =>
      decide (region.bytes ≠ bytes) }

/-- What `readRegionByteTotals` gives. -/
structure ByteTotals where
  bytes : Text → Option ℚ
  safe : ∀ id total, bytes id = some total →
    safeCount (some (.ofRat total)) = some total

/-- The totals of the container at the start of the plugin. -/
def reconcileTotal (totals : ByteTotals) (region : SavedRegion) :
    SavedRegion :=
  if region.status = .downloading ∨ region.status = .needsRedownload then
    region
  else
    let authoritativeBytes := (totals.bytes region.id).getD 0
    if (region.status = .ready ∨ region.status = .capped) ∧
        region.bytes > 0 ∧ authoritativeBytes = 0 then
      { region with status := .needsRedownload, bytes := 0 }
    else
      { region with bytes := authoritativeBytes }

/-! ## Transactions -/

/-- What a transaction makes of the store which it has loaded. -/
inductive Update where
  | save (store : RegionsStore)
  | keep
  | throw
deriving DecidableEq, Repr

def addRegion (region : SavedRegion) (store : RegionsStore) : Update :=
  if store.regions.length ≥ maxSavedRegions then
    .throw
  else
    .save { store with regions := store.regions ++ [region] }

/-- The first region of an identifier is patched. -/
def patchFirst (id : Text) (patch : RegionPatch) :
    List SavedRegion → List SavedRegion
  | [] => []
  | region :: rest =>
      if region.id = id then
        region.apply patch :: rest
      else
        region :: patchFirst id patch rest

def updateRegion (id : Text) (patch : RegionPatch) (store : RegionsStore) :
    Update :=
  .save { store with regions := patchFirst id patch store.regions }

def removeRegion (id : Text) (store : RegionsStore) : Update :=
  .save { store with
    regions := store.regions.filter fun region => region.id ≠ id }

def reconcilePositionWarmSources (keepSource : Text → Bool)
    (store : RegionsStore) : Update :=
  if store.positionWarm.sources.all keepSource then
    .keep
  else
    .save { store with
      positionWarm := { store.positionWarm with
        sources := store.positionWarm.sources.filter keepSource } }

/-- A request or a reconciliation which changes the store.  `markStatus` is
the loss of a job and the start of a redownload. -/
inductive Request where
  | positionWarm (body : Option Value)
  | cacheConfig (body : Option Value)
  | createRegion (body : Option Value) (uuid : Uuid) (now : DateNow)
  | removeRegion (id : Text)
  | reconcile (id : Text) (region : SavedRegion) (status : RegionStatus)
      (response : Option Value) (now : DateNow)
  | markStatus (id : Text) (status : RegionStatus)
  | reconcileSources
  | reconcileTotals (totals : ByteTotals)

/-- The transaction of a request, unless it is refused. -/
def Request.transaction (sourceById : SourceLookup) :
    Request → Except Text (RegionsStore → Update)
  | .positionWarm body => do
      let patch ← positionWarmConfig body sourceById
      return fun store => .save { store with
        positionWarm := store.positionWarm.apply patch }
  | .cacheConfig body => do
      let days ← Regions.cacheConfig body
      return fun store => .save { store with cacheScrollTtlDays := days }
  | .createRegion body uuid now => do
      let request ← regionRequest body sourceById
      return addRegion (request.region uuid now)
  | .removeRegion id => return Regions.removeRegion id
  | .reconcile id region status response now =>
      let patch := reconcilePatch region status response now
      return fun store =>
        if patch = ⟨none, none, none⟩ then .keep
        else updateRegion id patch store
  | .markStatus id status => return updateRegion id ⟨some status, none, none⟩
  | .reconcileSources =>
      return reconcilePositionWarmSources fun id =>
        (sourceById id).any isWarmableSource
  | .reconcileTotals totals =>
      return fun store => .save { store with
        regions := store.regions.map (reconcileTotal totals) }

/-- A region is created under an identifier which is not taken. -/
def Request.isFresh (request : Request) (store : RegionsStore) : Bool :=
  match request with
  | .createRegion _ uuid _ =>
      !(store.regions.map SavedRegion.id).contains uuid.text
  | _ => true

/-! ## Accepted data is kept -/

section Accepted

variable {sourceById : SourceLookup}

theorem validSourceIds_spec (plain : HasPlainIds sourceById)
    {value : Option Value} {allowEmpty : Bool} {sources : List Text}
    (accepted : validSourceIds value allowEmpty sourceById = some sources) :
    validSources (some (textValues sources)) = some sources ∧
      (allowEmpty = false → sources.length ≠ 0) := by
  have conditions := (Option.filter_eq_some_iff.mp accepted).2
  simp only [Bool.and_eq_true, Bool.or_eq_true, decide_eq_true_eq,
    List.all_eq_true] at conditions
  obtain ⟨⟨⟨⟨bounded, nonempty⟩, lengths⟩, distinct⟩, known⟩ := conditions
  constructor
  · apply validSources_textValues.mpr
    refine ⟨bounded, ?_, distinct⟩
    apply List.all_eq_true.mpr
    intro source member
    obtain ⟨trimmed, printable⟩ := plain source (known source member)
    obtain ⟨positive, short⟩ := lengths source member
    simp [isSourceText, trimmed, printable, positive, short]
  · intro required
    rcases nonempty with optional | nonempty
    · rw [required] at optional
      cases optional
    · exact nonempty

theorem bind_eq_ok {ε α β : Type} {first : Except ε α}
    {next : α → Except ε β} {result : β} :
    first >>= next = .ok result ↔
      ∃ value, first = .ok value ∧ next value = .ok result := by
  cases first with
  | error failure =>
      constructor
      · intro impossible
        cases impossible
      · intro ⟨_, impossible, _⟩
        cases impossible
  | ok value =>
      constructor
      · intro continued
        exact ⟨value, rfl, continued⟩
      · intro ⟨_, same, continued⟩
        cases same
        exact continued

/-- What a patch has of a member has passed its guard. -/
theorem patched_eq_ok {α : Type} {raw : Value} {name : String}
    {guard : Option Value → Option α} {message : Text} {narrowed : α}
    (accepted : patched raw name guard message = .ok (some narrowed)) :
    ∃ value, guard value = some narrowed := by
  unfold patched at accepted
  split at accepted
  · cases accepted
  · split at accepted
    · next passed =>
        cases accepted
        exact ⟨_, passed⟩
    · cases accepted

/-- A patched member passes its guard when the member before has. -/
theorem patched_getD {α : Type} {raw : Value} {name : String}
    {guard : Option Value → Option α} {write : α → Value} {message : Text}
    {patch : Option α} {before : α}
    (kept : ∀ value narrowed, guard value = some narrowed →
      guard (some (write narrowed)) = some narrowed)
    (accepted : patched raw name guard message = .ok patch)
    (passes : guard (some (write before)) = some before) :
    guard (some (write (patch.getD before))) = some (patch.getD before) := by
  cases patch with
  | none => exact passes
  | some narrowed =>
      obtain ⟨value, passed⟩ := patched_eq_ok accepted
      exact kept value narrowed passed

theorem patchedSources_eq_ok {raw : Value} {sources : Option (List Text)}
    (accepted : patchedSources raw sourceById = .ok sources) :
    patched raw "sources" (fun value => validSourceIds value true sourceById)
      (utf16 "sources must be a unique array of valid source IDs") =
        .ok sources := by
  obtain ⟨found, selected, rest⟩ := bind_eq_ok.mp accepted
  dsimp only at rest
  split at rest
  · cases rest
  · cases rest
    exact selected

theorem areKept_apply (plain : HasPlainIds sourceById)
    {value : Option Value} {patch : PositionWarmPatch}
    {settings : PositionWarmSettings}
    (accepted : readPositionWarmPatch value sourceById = .ok patch)
    (kept : AreKept settings) : AreKept (settings.apply patch) := by
  unfold readPositionWarmPatch at accepted
  split at accepted
  · obtain ⟨enabled, -, accepted⟩ := bind_eq_ok.mp accepted
    obtain ⟨radiusMeters, radius, accepted⟩ := bind_eq_ok.mp accepted
    obtain ⟨moveThresholdMeters, threshold, accepted⟩ :=
      bind_eq_ok.mp accepted
    obtain ⟨intervalSecs, interval, accepted⟩ := bind_eq_ok.mp accepted
    obtain ⟨baseZoom, zoom, accepted⟩ := bind_eq_ok.mp accepted
    obtain ⟨sources, selected, accepted⟩ := bind_eq_ok.mp accepted
    cases accepted
    constructor
    · exact patched_getD (repeats_finiteBetween _ _) radius
        kept.radiusMeters
    · exact patched_getD (repeats_finiteBetween _ _) threshold
        kept.moveThresholdMeters
    · exact patched_getD (repeats_finiteBetween _ _) interval
        kept.intervalSecs
    · exact patched_getD (repeats_integerBetween _ _) zoom kept.baseZoom
    · cases sources with
      | none => exact kept.sources
      | some sources =>
          obtain ⟨_, valid⟩ := patched_eq_ok (patchedSources_eq_ok selected)
          exact (validSourceIds_spec plain valid).1
  · cases accepted

theorem isSaved_region (plain : HasPlainIds sourceById)
    {body : Option Value} {request : RegionRequest}
    (accepted : regionRequest body sourceById = .ok request) (uuid : Uuid)
    (now : DateNow) : IsSaved (request.region uuid now) := by
  have found : regionBody body sourceById = some request := by
    unfold regionRequest at accepted
    split at accepted
    · cases accepted
    · dsimp only at accepted
      split at accepted
      · cases accepted
      · cases accepted
        assumption
  unfold regionBody at found
  simp only [Option.bind_eq_bind, Option.bind_eq_some_iff] at found
  obtain ⟨name, named, bbox, boxed, sourceIds, selected, minzoom, lower,
    maxzoom, upper, same⟩ := found
  obtain rfl := Option.some.inj same
  obtain ⟨valid, nonempty⟩ := validSourceIds_spec plain selected
  obtain ⟨zoom, ordered⟩ := Option.filter_eq_some_iff.mp upper
  obtain ⟨bounds, whole⟩ := integerBetween_spec zoom
  constructor
  · exact uuid.regionId_text
  · exact repeats_normalizePrintableText _ _ _ named
  · exact repeats_isValidRegionBbox _ _ boxed
  · exact valid
  · exact nonempty rfl
  · exact repeats_integerBetween _ _ _ _ lower
  · exact integerBetween_ofRat.mpr
      ⟨⟨of_decide_eq_true ordered, bounds.2⟩, whole⟩
  · exact safeCount_nowUnixSecs now
  · rfl
  · rfl

end Accepted

/-! ## Changed stores are kept -/

/-- Regions changed in place or dropped. -/
theorem AreSaved.of_sublist {regions changed : List SavedRegion}
    (areSaved : AreSaved regions)
    (saved : ∀ region ∈ changed, IsSaved region)
    (ids : (changed.map SavedRegion.id).Sublist
      (regions.map SavedRegion.id)) : AreSaved changed := by
  constructor
  · exact saved
  · exact areSaved.distinct.sublist ids
  · have shorter := ids.length_le
    rw [List.length_map, List.length_map] at shorter
    exact shorter.trans areSaved.bounded

theorem AreSaved.removed {regions : List SavedRegion} (id : Text)
    (areSaved : AreSaved regions) :
    AreSaved (regions.filter fun region => region.id ≠ id) := by
  apply areSaved.of_sublist
  · intro region member
    exact areSaved.saved region (List.mem_of_mem_filter member)
  · exact List.filter_sublist.map _

/-- A patch whose numbers the loader accepts. -/
structure RegionPatch.IsSafe (patch : RegionPatch) : Prop where
  lastDownloadedAt : ∀ time, patch.lastDownloadedAt = some time →
    safeCount (some (.ofRat time)) = some time
  bytes : ∀ bytes, patch.bytes = some bytes →
    safeCount (some (.ofRat bytes)) = some bytes

theorem IsSaved.apply {region : SavedRegion} {patch : RegionPatch}
    (isSaved : IsSaved region) (safe : patch.IsSafe) :
    IsSaved (region.apply patch) := by
  constructor
  · exact isSaved.id
  · exact isSaved.name
  · exact isSaved.bbox
  · exact isSaved.sourceIds
  · exact isSaved.sourced
  · exact isSaved.minzoom
  · exact isSaved.maxzoom
  · exact isSaved.createdAt
  · unfold SavedRegion.apply
    cases patched : patch.lastDownloadedAt with
    | none => exact isSaved.lastDownloadedAt
    | some time =>
        exact congrArg (Option.map some) (safe.lastDownloadedAt time patched)
  · unfold SavedRegion.apply
    cases patched : patch.bytes with
    | none => exact isSaved.bytes
    | some bytes => exact safe.bytes bytes patched

theorem isSafe_reconcilePatch (region : SavedRegion) (status : RegionStatus)
    (response : Option Value) (now : DateNow) :
    (reconcilePatch region status response now).IsSafe := by
  constructor
  · intro time patched
    simp only [reconcilePatch] at patched
    split at patched
    · obtain rfl := Option.some.inj patched
      exact safeCount_nowUnixSecs now
    · cases patched
  · intro bytes patched
    obtain ⟨counted, -⟩ := Option.filter_eq_some_iff.mp patched
    exact repeats_integerBetween _ _ _ _ counted

theorem ids_patchFirst (id : Text) (patch : RegionPatch)
    (regions : List SavedRegion) :
    (patchFirst id patch regions).map SavedRegion.id =
      regions.map SavedRegion.id := by
  induction regions with
  | nil => rfl
  | cons region rest induction =>
      rw [patchFirst]
      split
      · rfl
      · rw [List.map_cons, List.map_cons, induction]

theorem isSaved_of_mem_patchFirst {id : Text} {patch : RegionPatch}
    {region : SavedRegion} (safe : patch.IsSafe)
    {regions : List SavedRegion}
    (saved : ∀ region ∈ regions, IsSaved region)
    (member : region ∈ patchFirst id patch regions) : IsSaved region := by
  induction regions with
  | nil => cases member
  | cons first rest induction =>
      obtain ⟨isSaved, others⟩ := List.forall_mem_cons.mp saved
      rw [patchFirst] at member
      split at member
      · rcases List.mem_cons.mp member with same | later
        · rw [same]
          exact isSaved.apply safe
        · exact others region later
      · rcases List.mem_cons.mp member with same | later
        · rw [same]
          exact isSaved
        · exact induction others later

theorem AreSaved.patched {id : Text} {patch : RegionPatch}
    {regions : List SavedRegion} (areSaved : AreSaved regions)
    (safe : patch.IsSafe) : AreSaved (patchFirst id patch regions) := by
  apply areSaved.of_sublist
  · intro region member
    exact isSaved_of_mem_patchFirst safe areSaved.saved member
  · rw [ids_patchFirst]

theorem IsSaved.withBytes {region : SavedRegion} (isSaved : IsSaved region)
    (status : RegionStatus) {bytes : ℚ}
    (safe : safeCount (some (.ofRat bytes)) = some bytes) :
    IsSaved { region with status := status, bytes := bytes } :=
  { isSaved with bytes := safe }

theorem isSaved_reconcileTotal {totals : ByteTotals} {region : SavedRegion}
    (isSaved : IsSaved region) : IsSaved (reconcileTotal totals region) := by
  unfold reconcileTotal
  split
  · exact isSaved
  · dsimp only
    split
    · exact isSaved.withBytes _ rfl
    · apply isSaved.withBytes
      cases found : totals.bytes region.id with
      | none => rfl
      | some total => exact totals.safe _ _ found

theorem id_reconcileTotal (totals : ByteTotals) (region : SavedRegion) :
    (reconcileTotal totals region).id = region.id := by
  unfold reconcileTotal
  split
  · rfl
  · dsimp only
    split
    · rfl
    · rfl

theorem AreSaved.reconciled {regions : List SavedRegion}
    (totals : ByteTotals) (areSaved : AreSaved regions) :
    AreSaved (regions.map (reconcileTotal totals)) := by
  apply areSaved.of_sublist
  · intro region member
    obtain ⟨before, present, same⟩ := List.mem_map.mp member
    rw [← same]
    exact isSaved_reconcileTotal (areSaved.saved before present)
  · rw [List.map_map]
    have ids : SavedRegion.id ∘ reconcileTotal totals = SavedRegion.id :=
      funext (id_reconcileTotal totals)
    rw [ids]

theorem AreKept.narrowed {settings : PositionWarmSettings}
    (kept : AreKept settings) (keepSource : Text → Bool) :
    AreKept { settings with
      sources := settings.sources.filter keepSource } := by
  refine { kept with sources := ?_ }
  obtain ⟨bounded, plain, distinct⟩ :=
    validSources_textValues.mp kept.sources
  apply validSources_textValues.mpr
  refine ⟨(List.length_filter_le _ _).trans bounded, ?_, distinct.filter _⟩
  apply List.all_eq_true.mpr
  intro source member
  exact List.all_eq_true.mp plain source (List.mem_of_mem_filter member)

/-- A transaction of an accepted request saves a store which may be loaded. -/
theorem Request.isStored {sourceById : SourceLookup}
    (plain : HasPlainIds sourceById) {request : Request}
    {transaction : RegionsStore → Update} {store changed : RegionsStore}
    (accepted : request.transaction sourceById = .ok transaction)
    (fresh : request.isFresh store = true) (stored : IsStored store)
    (saves : transaction store = .save changed) : IsStored changed := by
  cases request with
  | positionWarm body =>
      obtain ⟨patch, granted, same⟩ := bind_eq_ok.mp accepted
      cases same
      cases saves
      refine { stored with positionWarm := ?_ }
      unfold positionWarmConfig at granted
      split at granted
      · cases granted
      · exact areKept_apply plain granted stored.positionWarm
  | cacheConfig body =>
      obtain ⟨days, granted, same⟩ := bind_eq_ok.mp accepted
      cases same
      cases saves
      refine { stored with cacheScrollTtlDays := ?_ }
      unfold Regions.cacheConfig at granted
      split at granted
      · cases granted
      · next found =>
          cases granted
          exact repeats_integerBetween _ _ _ _ found
  | createRegion body uuid now =>
      obtain ⟨asked, granted, same⟩ := bind_eq_ok.mp accepted
      cases same
      unfold addRegion at saves
      split at saves
      · cases saves
      · next room =>
          cases saves
          refine { stored with regions := ?_ }
          apply stored.regions.append (isSaved_region plain granted uuid now)
          · have free : uuid.text ∉ store.regions.map SavedRegion.id := by
              simpa [Request.isFresh] using fresh
            exact free
          · exact Nat.lt_of_not_le room
  | removeRegion id =>
      cases accepted
      cases saves
      exact { stored with regions := stored.regions.removed id }
  | reconcile id region status response now =>
      cases accepted
      dsimp only at saves
      split at saves
      · cases saves
      · cases saves
        exact { stored with
          regions := stored.regions.patched
            (isSafe_reconcilePatch region status response now) }
  | markStatus id status =>
      cases accepted
      cases saves
      have safe : RegionPatch.IsSafe ⟨some status, none, none⟩ := by
        constructor
        · intro time patched
          cases patched
        · intro bytes patched
          cases patched
      exact { stored with regions := stored.regions.patched safe }
  | reconcileSources =>
      cases accepted
      unfold reconcilePositionWarmSources at saves
      split at saves
      · cases saves
      · cases saves
        exact { stored with positionWarm := stored.positionWarm.narrowed _ }
  | reconcileTotals totals =>
      cases accepted
      cases saves
      exact { stored with regions := stored.regions.reconciled totals }

end ChartLocker.Plugin.Regions
