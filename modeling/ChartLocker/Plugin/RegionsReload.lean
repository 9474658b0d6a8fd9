import ChartLocker.Plugin.RegionsStore
import Mathlib.Data.Nat.Cast.Order.Ring
import Mathlib.Tactic.NormNum

/-!
# Reading a written store

A store which has been read or changed by an accepted request is written as a
value which every guard of the next load accepts, and which reads as the same
store.
-/

namespace ChartLocker.Plugin.Regions

open Library Ecma

/-! ## Guards accept what they return -/

/-- What a guard has returned passes it again once it is written. -/
def Repeats {α : Type} (guard : Option Value → Option α)
    (write : α → Value) : Prop :=
  ∀ value narrowed, guard value = some narrowed →
    guard (some (write narrowed)) = some narrowed

theorem repeats_finiteBetween (low high : ℚ) :
    Repeats (finiteBetween low high) .ofRat := by
  intro value narrowed accepted
  exact finiteBetween_ofRat.mpr (finiteBetween_bounds accepted)

theorem repeats_integerBetween (low high : ℚ) :
    Repeats (integerBetween low high) .ofRat := by
  intro value narrowed accepted
  exact integerBetween_ofRat.mpr (integerBetween_spec accepted)

theorem textArray_textValues (texts : List Text) :
    textArray (some (textValues texts)) = some texts := by
  simp [textArray, textValues, asText, List.filterMap_map,
    Function.comp_def]

theorem validSources_textValues {sources : List Text} :
    validSources (some (textValues sources)) = some sources ↔
      sources.length ≤ maxSourceIds ∧ sources.all isSourceText = true ∧
        sources.Nodup := by
  unfold validSources
  rw [textArray_textValues, Option.filter_eq_some_iff]
  simp [and_assoc]

theorem validSources_spec {value : Option Value} {sources : List Text}
    (accepted : validSources value = some sources) :
    sources.length ≤ maxSourceIds ∧ sources.all isSourceText = true ∧
      sources.Nodup := by
  have conditions := (Option.filter_eq_some_iff.mp accepted).2
  simpa [and_assoc] using conditions

theorem repeats_validSources : Repeats validSources textValues := by
  intro value sources accepted
  exact validSources_textValues.mpr (validSources_spec accepted)

theorem isValidRegionBbox_toValue {bbox : RegionBbox} :
    isValidRegionBbox (some bbox.toValue) = some bbox ↔
      bbox.isValid = true := by
  simp [isValidRegionBbox, RegionBbox.toValue, asFinite, Value.ofRat]

theorem isValid_of_accepted {value : Option Value} {bbox : RegionBbox}
    (accepted : isValidRegionBbox value = some bbox) :
    bbox.isValid = true := by
  unfold isValidRegionBbox at accepted
  split at accepted
  · split at accepted
    · dsimp only at accepted
      split at accepted
      · next valid =>
          obtain rfl := Option.some.inj accepted
          exact valid
      · cases accepted
    · cases accepted
  · cases accepted

theorem repeats_isValidRegionBbox :
    Repeats isValidRegionBbox RegionBbox.toValue := by
  intro value bbox accepted
  exact isValidRegionBbox_toValue.mpr (isValid_of_accepted accepted)

theorem normalizePrintableText_eq_some {value : Option Value} {limit : ℕ}
    {name : Text} :
    normalizePrintableText value limit = some name ↔
      ∃ text, asText value = some text ∧ hasControlUnit text = false ∧
        trim text = name ∧ name.length ≠ 0 ∧ name.length ≤ limit := by
  unfold normalizePrintableText
  rw [Option.bind_eq_some_iff]
  apply exists_congr
  intro text
  apply and_congr_right
  intro _
  by_cases control : hasControlUnit text = true
  · simp [control]
  · rw [if_neg control]
    simp only [Bool.not_eq_true] at control
    dsimp only
    split
    · next refused =>
        constructor
        · intro impossible
          cases impossible
        · intro ⟨_, same, nonempty, short⟩
          subst same
          rcases refused with empty | long
          · exact absurd empty nonempty
          · exact absurd short (Nat.not_le.mpr long)
    · next kept =>
        push Not at kept
        constructor
        · intro same
          obtain rfl := Option.some.inj same
          exact ⟨control, rfl, kept.1, kept.2⟩
        · intro ⟨_, same, _, _⟩
          rw [same]

theorem hasControlUnit_trim {text : Text}
    (printable : hasControlUnit text = false) :
    hasControlUnit (trim text) = false := by
  unfold hasControlUnit at printable ⊢
  rw [List.any_eq_false] at printable ⊢
  intro unit member
  exact printable unit (Trimming.mem_of_mem_trimBy member)

theorem repeats_normalizePrintableText (limit : ℕ) :
    Repeats (fun value => normalizePrintableText value limit) .string := by
  intro value name accepted
  obtain ⟨text, -, printable, trimmed, nonempty, short⟩ :=
    normalizePrintableText_eq_some.mp accepted
  apply normalizePrintableText_eq_some.mpr
  refine ⟨name, rfl, ?_, ?_, nonempty, short⟩
  · rw [← trimmed]
    exact hasControlUnit_trim printable
  · rw [← trimmed]
    exact trim_trim text

theorem repeats_downloadTime :
    Repeats downloadTime fun time => time.elim .null .ofRat := by
  intro value time accepted
  cases time with
  | none => rfl
  | some seconds =>
      have counted : safeCount value = some seconds := by
        unfold downloadTime at accepted
        split at accepted
        · cases accepted
        · obtain ⟨found, counted, same⟩ := Option.map_eq_some_iff.mp accepted
          rw [counted, Option.some.inj same]
      have again :=
        repeats_integerBetween 0 maxSafeInteger value seconds counted
      exact congrArg (Option.map some) again

/-! ## Regions -/

/-- A region as the parser returns it. -/
structure IsSaved (region : SavedRegion) : Prop where
  id : regionId (some (.string region.id)) [] = some region.id
  name : normalizePrintableText (some (.string region.name))
    maxRegionNameLength = some region.name
  bbox : isValidRegionBbox (some region.bbox.toValue) = some region.bbox
  sourceIds : validSources (some (textValues region.sourceIds)) =
    some region.sourceIds
  sourced : region.sourceIds.length ≠ 0
  minzoom : warmZoom (some (.ofRat region.minzoom)) = some region.minzoom
  maxzoom : integerBetween region.minzoom maxWarmZoom
    (some (.ofRat region.maxzoom)) = some region.maxzoom
  createdAt : safeCount (some (.ofRat region.createdAt)) =
    some region.createdAt
  lastDownloadedAt : downloadTime
    (some (region.lastDownloadedAt.elim .null .ofRat)) =
      some region.lastDownloadedAt
  bytes : safeCount (some (.ofRat region.bytes)) = some region.bytes

theorem regionId_eq_some {value : Option Value} {ids : List Text} {id : Text} :
    regionId value ids = some id ↔
      regionId value [] = some id ∧ id ∉ ids := by
  unfold regionId
  rw [Option.filter_eq_some_iff, Option.filter_eq_some_iff]
  simp [and_assoc]

theorem repeats_regionId :
    Repeats (fun value => regionId value []) .string := by
  intro value id accepted
  have conditions := (Option.filter_eq_some_iff.mp accepted).2
  exact Option.filter_eq_some_iff.mpr ⟨rfl, conditions⟩

theorem parseRegionState_spec {raw : Value} {ids : List Text}
    {region : SavedRegion} (parsed : parseRegionState raw ids = some region) :
    IsSaved region ∧ region.id ∉ ids := by
  unfold parseRegionState at parsed
  simp only [Option.bind_eq_bind, Option.bind_eq_some_iff] at parsed
  obtain ⟨name, named, id, identified, bbox, boxed, sourceIds, sourced,
    minzoom, lower, maxzoom, upper, createdAt, created, lastDownloadedAt,
    downloaded, bytes, counted, status, stated, same⟩ := parsed
  obtain rfl := Option.some.inj same
  obtain ⟨alone, fresh⟩ := regionId_eq_some.mp identified
  obtain ⟨selected, nonempty⟩ := Option.filter_eq_some_iff.mp sourced
  refine ⟨?_, fresh⟩
  constructor
  · exact repeats_regionId _ _ alone
  · exact repeats_normalizePrintableText _ _ _ named
  · exact repeats_isValidRegionBbox _ _ boxed
  · exact repeats_validSources _ _ selected
  · exact of_decide_eq_true nonempty
  · exact repeats_integerBetween _ _ _ _ lower
  · exact repeats_integerBetween _ _ _ _ upper
  · exact repeats_integerBetween _ _ _ _ created
  · exact repeats_downloadTime _ _ downloaded
  · exact repeats_integerBetween _ _ _ _ counted

theorem parseRegionState_toValue {region : SavedRegion} {ids : List Text}
    (saved : IsSaved region) (fresh : region.id ∉ ids) :
    parseRegionState region.toValue ids = some region := by
  have identified := regionId_eq_some.mpr ⟨saved.id, fresh⟩
  have sourced : region.sourceIds ≠ [] := by
    intro empty
    exact saved.sourced (List.length_eq_zero_iff.mpr empty)
  unfold parseRegionState SavedRegion.toValue
  simp [saved.name, identified, saved.bbox, saved.sourceIds,
    Option.filter_some, sourced, saved.minzoom, saved.maxzoom,
    saved.createdAt, saved.lastDownloadedAt, saved.bytes, asText]

/-! ## Lists of regions -/

/-- The regions of a store. -/
structure AreSaved (regions : List SavedRegion) : Prop where
  saved : ∀ region ∈ regions, IsSaved region
  distinct : (regions.map SavedRegion.id).Nodup
  bounded : regions.length ≤ maxSavedRegions

theorem areSaved_nil : AreSaved [] := by
  constructor
  · intro region member
    cases member
  · exact List.nodup_nil
  · exact Nat.zero_le _

/-- One more region, with an identifier which is not taken. -/
theorem AreSaved.append {regions : List SavedRegion} {region : SavedRegion}
    (areSaved : AreSaved regions) (isSaved : IsSaved region)
    (fresh : region.id ∉ regions.map SavedRegion.id)
    (room : regions.length < maxSavedRegions) :
    AreSaved (regions ++ [region]) := by
  constructor
  · intro other member
    rcases List.mem_append.mp member with earlier | last
    · exact areSaved.saved other earlier
    · rw [List.mem_singleton.mp last]
      exact isSaved
  · rw [List.map_append, List.map_singleton]
    apply List.Nodup.append areSaved.distinct (List.nodup_singleton _)
    rw [List.disjoint_singleton]
    exact fresh
  · rw [List.length_append, List.length_singleton]
    exact room

theorem AreSaved.next {regions rest : List SavedRegion}
    {region : SavedRegion} (areSaved : AreSaved (regions ++ region :: rest)) :
    IsSaved region ∧ region.id ∉ regions.map SavedRegion.id := by
  constructor
  · apply areSaved.saved
    exact List.mem_append_right _ List.mem_cons_self
  · have distinct := areSaved.distinct
    rw [List.map_append, List.map_cons] at distinct
    intro taken
    exact List.disjoint_of_nodup_append distinct taken List.mem_cons_self

/-- The set of the loop holds the identifiers of the regions found. -/
def Collects (ids : List Text) (regions : List SavedRegion) : Prop :=
  ∀ id, id ∈ ids ↔ id ∈ regions.map SavedRegion.id

theorem Collects.append {ids : List Text} {regions : List SavedRegion}
    (collects : Collects ids regions) (region : SavedRegion) :
    Collects (region.id :: ids) (regions ++ [region]) := by
  intro id
  rw [List.map_append, List.map_singleton, List.mem_cons, List.mem_append,
    List.mem_singleton, collects id]
  exact or_comm

theorem areSaved_collectRegions {values : List Value} :
    ∀ {ids : List Text} {regions : List SavedRegion},
      Collects ids regions → AreSaved regions →
        AreSaved (collectRegions ids regions values) := by
  induction values with
  | nil =>
      intro ids regions _ areSaved
      exact areSaved
  | cons raw rest induction =>
      intro ids regions collects areSaved
      rw [collectRegions]
      split
      · exact areSaved
      · next room =>
          split
          · next region parsed =>
              obtain ⟨isSaved, fresh⟩ := parseRegionState_spec parsed
              apply induction (collects.append region)
              apply areSaved.append isSaved
              · intro taken
                exact fresh ((collects region.id).mpr taken)
              · exact Nat.lt_of_not_le room
          · exact induction collects areSaved

theorem areSaved_normalizeRegions (value : Option Value) :
    AreSaved (normalizeRegions value) := by
  unfold normalizeRegions
  split
  · apply areSaved_collectRegions
    · intro id
      exact Iff.rfl
    · exact areSaved_nil
  · exact areSaved_nil

/-- The loop reads written regions back, behind those it has found. -/
theorem collectRegions_toValue {later : List SavedRegion} :
    ∀ {ids : List Text} {regions : List SavedRegion},
      Collects ids regions → AreSaved (regions ++ later) →
        collectRegions ids regions (later.map SavedRegion.toValue) =
          regions ++ later := by
  induction later with
  | nil =>
      intro ids regions _ _
      exact (List.append_nil regions).symm
  | cons region rest induction =>
      intro ids regions collects areSaved
      obtain ⟨isSaved, free⟩ := areSaved.next
      have fresh : region.id ∉ ids := by
        rw [collects region.id]
        exact free
      have room : ¬ regions.length ≥ maxSavedRegions := by
        have bounded := areSaved.bounded
        rw [List.length_append, List.length_cons] at bounded
        omega
      rw [List.append_cons] at areSaved
      rw [List.map_cons, collectRegions, if_neg room,
        parseRegionState_toValue isSaved fresh]
      dsimp only
      rw [induction (collects.append region) areSaved, ← List.append_cons]

theorem allRegionsParse_toValue {later : List SavedRegion} :
    ∀ {ids : List Text} {regions : List SavedRegion},
      Collects ids regions → AreSaved (regions ++ later) →
        allRegionsParse ids (later.map SavedRegion.toValue) = true := by
  induction later with
  | nil =>
      intro ids regions _ _
      rfl
  | cons region rest induction =>
      intro ids regions collects areSaved
      obtain ⟨isSaved, free⟩ := areSaved.next
      have fresh : region.id ∉ ids := by
        rw [collects region.id]
        exact free
      rw [List.append_cons] at areSaved
      rw [List.map_cons, allRegionsParse,
        parseRegionState_toValue isSaved fresh]
      exact induction (collects.append region) areSaved

theorem collects_nil : Collects [] [] := by
  intro id
  exact Iff.rfl

/-! ## Stores -/

structure AreKept (settings : PositionWarmSettings) : Prop where
  radiusMeters : inPositionWarmRange .radiusMeters
    (some (.ofRat settings.radiusMeters)) = some settings.radiusMeters
  moveThresholdMeters : inPositionWarmRange .moveThresholdMeters
    (some (.ofRat settings.moveThresholdMeters)) =
      some settings.moveThresholdMeters
  intervalSecs : inPositionWarmRange .intervalSecs
    (some (.ofRat settings.intervalSecs)) = some settings.intervalSecs
  baseZoom : warmZoom (some (.ofRat settings.baseZoom)) =
    some settings.baseZoom
  sources : validSources (some (textValues settings.sources)) =
    some settings.sources

/-- A store which a load may return. -/
structure IsStored (store : RegionsStore) : Prop where
  regions : AreSaved store.regions
  positionWarm : AreKept store.positionWarm
  cacheScrollTtlDays : ttlDays (some (.ofRat store.cacheScrollTtlDays)) =
    some store.cacheScrollTtlDays

/-- A guarded value or its default, when the default passes as well. -/
theorem Repeats.getD {α : Type} {guard : Option Value → Option α}
    {write : α → Value} (repeats : Repeats guard write) {default : α}
    (value : Option Value) (passes : guard (some (write default)) =
      some default) :
    guard (some (write ((guard value).getD default))) =
      some ((guard value).getD default) := by
  cases accepted : guard value with
  | none => exact passes
  | some narrowed => exact repeats value narrowed accepted

/-- The defaults pass their own guards. -/
theorem areKept_default : AreKept defaultRegionsStore.positionWarm := by
  constructor
  all_goals rfl

theorem areKept_normalizePositionWarm (value : Option Value) :
    AreKept (normalizePositionWarm value) := by
  constructor
  · exact (repeats_finiteBetween _ _).getD _ areKept_default.radiusMeters
  · exact (repeats_finiteBetween _ _).getD _
      areKept_default.moveThresholdMeters
  · exact (repeats_finiteBetween _ _).getD _ areKept_default.intervalSecs
  · exact (repeats_integerBetween _ _).getD _ areKept_default.baseZoom
  · exact repeats_validSources.getD _ areKept_default.sources

theorem ttlDays_normalize (value : Option Value) :
    ttlDays (some (.ofRat (normalizeTtlDays value))) =
      some (normalizeTtlDays value) :=
  (repeats_integerBetween _ _).getD value rfl

theorem normalizePositionWarm_toValue {settings : PositionWarmSettings}
    (kept : AreKept settings) :
    normalizePositionWarm (some settings.toValue) = settings := by
  unfold normalizePositionWarm PositionWarmSettings.toValue
  simp [field, asBool, kept.radiusMeters, kept.moveThresholdMeters,
    kept.intervalSecs, kept.baseZoom, kept.sources]

theorem validPositionWarmState_toValue {settings : PositionWarmSettings}
    (kept : AreKept settings) :
    validPositionWarmState (some settings.toValue) = true := by
  unfold validPositionWarmState PositionWarmSettings.toValue
  simp [absentOr, asBool, Value.isObject, kept.radiusMeters,
    kept.moveThresholdMeters, kept.intervalSecs, kept.baseZoom, kept.sources]

namespace RegionsStore

variable (store : RegionsStore)

theorem get_regions : store.toValue.get "regions" =
    some (.array (store.regions.map SavedRegion.toValue)) := by
  simp [toValue]

theorem get_positionWarm : store.toValue.get "positionWarm" =
    some store.positionWarm.toValue := by
  simp [toValue]

theorem get_cacheScrollTtlDays : store.toValue.get "cacheScrollTtlDays" =
    some (.ofRat store.cacheScrollTtlDays) := by
  simp [toValue]

theorem isLegacy_toValue : isLegacy store.toValue = false := by
  simp [isLegacy, toValue]

end RegionsStore

/-- A stored store reads as itself. -/
theorem normalizeStore_toValue {store : RegionsStore}
    (stored : IsStored store) :
    normalizeStore store.toValue = store := by
  have regions : normalizeRegions (store.toValue.get "regions") =
      store.regions := by
    rw [store.get_regions]
    exact collectRegions_toValue collects_nil stored.regions
  have positionWarm :
      normalizePositionWarm (store.toValue.get "positionWarm") =
        store.positionWarm := by
    rw [store.get_positionWarm]
    exact normalizePositionWarm_toValue stored.positionWarm
  have days : normalizeTtlDays (store.toValue.get "cacheScrollTtlDays") =
      store.cacheScrollTtlDays := by
    rw [store.get_cacheScrollTtlDays]
    unfold normalizeTtlDays
    rw [stored.cacheScrollTtlDays]
    rfl
  unfold normalizeStore
  rw [regions, positionWarm, days]

theorem hasSemanticCorruption_toValue {store : RegionsStore}
    (stored : IsStored store) :
    hasSemanticCorruption store.toValue = false := by
  have regions : corruptRegions (store.toValue.get "regions") = false := by
    rw [store.get_regions]
    have bounded := stored.regions.bounded
    have parse := allRegionsParse_toValue collects_nil stored.regions
    simp [corruptRegions, parse, bounded]
  have positionWarm :
      validPositionWarmState (store.toValue.get "positionWarm") = true := by
    rw [store.get_positionWarm]
    exact validPositionWarmState_toValue stored.positionWarm
  have days : absentOr ttlDays (store.toValue.get "cacheScrollTtlDays") =
      true := by
    rw [store.get_cacheScrollTtlDays]
    simp [absentOr, stored.cacheScrollTtlDays]
  unfold hasSemanticCorruption
  rw [regions, positionWarm, days]
  rfl

theorem isStored_normalizeStore (raw : Value) :
    IsStored (normalizeStore raw) := by
  constructor
  · exact areSaved_normalizeRegions _
  · exact areKept_normalizePositionWarm _
  · exact ttlDays_normalize _

/-! ## Migration -/

/-- A box of version 2 becomes a region, its `minzoom` is above the default
of `maxzoom` and its `maxzoom` is missing or refused. -/
structure MisorderedZooms (raw : Value) : Prop where
  boxed : (legacyBox raw).isSome = true
  misordered : ∃ minzoom, warmZoom (raw.get "minzoom") = some minzoom ∧
    12 < minzoom ∧
    integerBetween minzoom maxWarmZoom (raw.get "maxzoom") = none

theorem rawMaxzoom_lt_rawMinzoom_iff {raw : Value} :
    rawMaxzoom raw < rawMinzoom raw ↔
      ∃ minzoom, warmZoom (raw.get "minzoom") = some minzoom ∧ 12 < minzoom ∧
        integerBetween minzoom maxWarmZoom (raw.get "maxzoom") = none := by
  unfold rawMaxzoom
  cases lower : warmZoom (raw.get "minzoom") with
  | none =>
      have default : rawMinzoom raw = 6 := by
        simp [rawMinzoom, lower]
      rw [default]
      cases upper : integerBetween 6 maxWarmZoom (raw.get "maxzoom") with
      | none =>
          constructor
          · intro low
            norm_num at low
          · intro ⟨_, found, _⟩
            cases found
      | some maxzoom =>
          have bounds := (integerBetween_spec upper).1.1
          simp [bounds]
  | some minzoom =>
      have given : rawMinzoom raw = minzoom := by
        simp [rawMinzoom, lower]
      rw [given]
      cases upper : integerBetween minzoom maxWarmZoom
          (raw.get "maxzoom") with
      | none => simp [upper]
      | some maxzoom =>
          have bounds := (integerBetween_spec upper).1.1
          simp [upper, bounds]

theorem legacyBox_spec {raw : Value} {bbox : RegionBbox}
    {sources : List Text} (boxed : legacyBox raw = some (bbox, sources)) :
    hasRegions raw = false ∧ isLegacy raw = true ∧
      isValidRegionBbox (raw.get "bbox") = some bbox ∧
      validSources (raw.get "sources") = some sources ∧
      sources.length ≠ 0 := by
  unfold legacyBox at boxed
  split at boxed
  · cases boxed
  · next noRegions =>
      split at boxed
      · next valid selected =>
          cases boxed
          obtain ⟨accepted, nonempty⟩ := Option.filter_eq_some_iff.mp selected
          have present : (raw.get "bbox").isSome = true := by
            cases found : raw.get "bbox" with
            | none =>
                rw [found] at valid
                cases valid
            | some _ => rfl
          refine ⟨Bool.not_eq_true _ ▸ noRegions, ?_, valid, accepted, ?_⟩
          · unfold isLegacy
            rw [present]
            rfl
          · exact Nat.ne_of_gt (of_decide_eq_true nonempty)
      · cases boxed

theorem Uuid.regionId_text (uuid : Uuid) :
    regionId (some (.string uuid.text)) [] = some uuid.text := by
  have printable : hasControlUnit uuid.text = false := by
    unfold hasControlUnit
    rw [List.any_eq_false]
    intro unit member
    have plain := uuid.plain unit member
    unfold controlUnit
    simp only [Bool.or_eq_true, Bool.and_eq_true, decide_eq_true_eq,
      beq_iff_eq]
    omega
  apply Option.filter_eq_some_iff.mpr
  refine ⟨rfl, ?_⟩
  simp [uuid.length_eq, maxRegionIdLength, printable]

theorem safeCount_nowUnixSecs (now : DateNow) :
    safeCount (some (.ofRat (nowUnixSecs now))) = some (nowUnixSecs now) := by
  have bounded : now.milliseconds / 1000 ≤ 9007199254740991 := by
    have limit := now.bounded
    omega
  apply integerBetween_ofRat.mpr
  unfold nowUnixSecs maxSafeInteger
  refine ⟨⟨Nat.cast_nonneg _, ?_⟩, ?_⟩
  · exact_mod_cast bounded
  · rfl

theorem warmZoom_rawMinzoom (raw : Value) :
    warmZoom (some (.ofRat (rawMinzoom raw))) = some (rawMinzoom raw) :=
  (repeats_integerBetween _ _).getD _ rfl

theorem downloadedRegion_name :
    normalizePrintableText (some (.string (utf16 "Downloaded region")))
      maxRegionNameLength = some (utf16 "Downloaded region") := by
  decide

theorem isSaved_migratedRegion {raw : Value} {uuid : Uuid} {now : DateNow}
    {bbox : RegionBbox} {sources : List Text}
    (boxed : legacyBox raw = some (bbox, sources))
    (ordered : ¬ rawMaxzoom raw < rawMinzoom raw) :
    IsSaved (migratedRegion raw uuid now bbox sources) := by
  obtain ⟨-, -, valid, selected, nonempty⟩ := legacyBox_spec boxed
  have upper : integerBetween (rawMinzoom raw) maxWarmZoom
      (some (.ofRat (rawMaxzoom raw))) = some (rawMaxzoom raw) := by
    cases found : integerBetween (rawMinzoom raw) maxWarmZoom
        (raw.get "maxzoom") with
    | none =>
        have default : rawMaxzoom raw = 12 := by
          simp [rawMaxzoom, found]
        rw [default] at ordered ⊢
        apply integerBetween_ofRat.mpr
        refine ⟨⟨not_lt.mp ordered, ?_⟩, rfl⟩
        norm_num [maxWarmZoom]
    | some maxzoom =>
        have given : rawMaxzoom raw = maxzoom := by
          simp [rawMaxzoom, found]
        rw [given]
        exact repeats_integerBetween _ _ _ _ found
  constructor
  · exact uuid.regionId_text
  · exact downloadedRegion_name
  · exact repeats_isValidRegionBbox _ _ valid
  · exact repeats_validSources _ _ selected
  · exact nonempty
  · exact warmZoom_rawMinzoom raw
  · exact upper
  · exact safeCount_nowUnixSecs now
  · rfl
  · rfl

/-- The store of a load, from which no region of a later load is missing. -/
theorem isStored_storeOf {raw : Value} {uuid : Uuid} {now : DateNow}
    (ordered : ¬ MisorderedZooms raw) : IsStored (storeOf raw uuid now) := by
  unfold storeOf
  split
  · constructor
    · unfold migrateV2
      cases boxed : legacyBox raw with
      | none =>
          simp only [Option.map_none, Option.toList_none, List.append_nil]
          split
          · exact areSaved_normalizeRegions _
          · exact areSaved_nil
      | some box =>
          obtain ⟨bbox, sources⟩ := box
          have noRegions := (legacyBox_spec boxed).1
          have zooms : ¬ rawMaxzoom raw < rawMinzoom raw := by
            rw [rawMaxzoom_lt_rawMinzoom_iff]
            intro misordered
            apply ordered
            constructor
            · rw [boxed]
              rfl
            · exact misordered
          rw [noRegions]
          apply areSaved_nil.append (isSaved_migratedRegion boxed zooms)
          · exact List.not_mem_nil
          · decide
    · exact areKept_normalizePositionWarm _
    · exact ttlDays_normalize _
  · exact isStored_normalizeStore raw

theorem eq_of_integerBetween_ofRat {low high number found : ℚ}
    (accepted : integerBetween low high (some (.ofRat number)) =
      some found) : found = number := by
  have between := (Option.filter_eq_some_iff.mp accepted).1
  have finite := (Option.filter_eq_some_iff.mp between).1
  exact (Option.some.inj finite).symm

/-- A region with misordered zooms does not parse. -/
theorem parseRegionState_eq_none {region : SavedRegion} {ids : List Text}
    (misordered : region.maxzoom < region.minzoom) :
    parseRegionState region.toValue ids = none := by
  rw [Option.eq_none_iff_forall_ne_some]
  intro parsed found
  unfold parseRegionState SavedRegion.toValue at found
  simp only [Option.bind_eq_bind, Option.bind_eq_some_iff] at found
  obtain ⟨-, -, -, -, -, -, -, -, minzoom, lower, maxzoom, upper, -⟩ := found
  have low : minzoom = region.minzoom := by
    apply @eq_of_integerBetween_ofRat 0 maxWarmZoom
    simpa [warmZoom] using lower
  have high : maxzoom = region.maxzoom := by
    apply @eq_of_integerBetween_ofRat minzoom maxWarmZoom
    simpa using upper
  have bounds := (integerBetween_spec upper).1.1
  rw [low, high] at bounds
  exact absurd misordered (not_lt.mpr bounds)

theorem hasSemanticCorruption_of_misordered {raw : Value} {uuid : Uuid}
    {now : DateNow} (misordered : MisorderedZooms raw) :
    hasSemanticCorruption (storeOf raw uuid now).toValue = true := by
  obtain ⟨⟨bbox, sources⟩, boxed⟩ := Option.isSome_iff_exists.mp
    misordered.boxed
  obtain ⟨noRegions, legacy, -⟩ := legacyBox_spec boxed
  let region := migratedRegion raw uuid now bbox sources
  have regions : (storeOf raw uuid now).regions = [region] := by
    unfold storeOf
    rw [if_pos legacy]
    unfold migrateV2
    rw [noRegions, boxed]
    rfl
  have refused : parseRegionState region.toValue [] = none := by
    apply parseRegionState_eq_none
    exact rawMaxzoom_lt_rawMinzoom_iff.mpr misordered.misordered
  have corrupt : corruptRegions ((storeOf raw uuid now).toValue.get
      "regions") = true := by
    rw [RegionsStore.get_regions, regions, List.map_singleton]
    simp [corruptRegions, allRegionsParse, refused]
  unfold hasSemanticCorruption
  rw [corrupt]
  rfl

end ChartLocker.Plugin.Regions
