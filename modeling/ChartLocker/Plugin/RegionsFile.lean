import ChartLocker.Library.Machine
import ChartLocker.Plugin.RegionChanges

/-!
# The file of the regions store

`loadRegionsStore` and the transactions over it, with file calls which may
fail.  A write goes to a temporary file which is renamed at last, so that a
failed write leaves the document under the name of the store as it was.  After
a crash every later call fails.
-/

namespace ChartLocker.Plugin.Regions

open Library Ecma

/-! ## File calls -/

inductive FileCall where
  | read
  | moveAside
  | copy
  | makeDirectory
  | openTemporary
  | writeTemporary
  | flush
  | close
  | rename
  | unlink
deriving DecidableEq, Repr

abbrev Faults : Type := FileCall → Bool

/-- The content of a file: what it parses as, if it does. -/
inductive Document where
  | unreadable
  | json (value : Value)

structure Disk where
  /-- Under the name of the store. -/
  file : Option Document
  copies : List Document
  temporaries : ℕ

def Disk.replaced (disk : Disk) (value : Value) : Disk :=
  { disk with file := some (.json value) }

/-- Whether the write has come to its end.  The sweep of stale temporaries and
the flush of the directory may fail unnoticed. -/
def writeJsonState (fails : Faults) (value : Value) (disk : Disk) :
    Disk × Bool :=
  if fails .makeDirectory || fails .openTemporary then
    (disk, false)
  else if fails .writeTemporary || fails .flush || fails .close ||
      fails .rename then
    if fails .unlink then
      ({ disk with temporaries := disk.temporaries + 1 }, false)
    else
      (disk, false)
  else
    (disk.replaced value, true)

/-- The root object, empty without a file.  Anything else is moved aside. -/
def readJsonState (fails : Faults) (disk : Disk) : Disk × Option Value :=
  if fails .read then
    (disk, none)
  else
    match disk.file with
    | none => (disk, some (.object []))
    | some (.json (.object members)) => (disk, some (.object members))
    | some document =>
        if fails .moveAside then
          (disk, none)
        else
          ({ disk with
              file := none
              copies := document :: disk.copies }, some (.object []))

/-- `preserveInvalidJsonState` with `keepOriginal`. -/
def preserveInvalidJsonState (fails : Faults) (disk : Disk) : Disk × Bool :=
  if fails .copy then
    (disk, false)
  else
    ({ disk with copies := disk.file.toList ++ disk.copies }, true)

def saveRegionsStore (fails : Faults) (store : RegionsStore) (disk : Disk) :
    Disk × Bool :=
  writeJsonState fails store.toValue disk

/-- What a load is given by its environment. -/
structure LoadCalls where
  fails : Faults
  uuid : Uuid
  now : DateNow

/-- The rest of a load, once a corrupt file has been copied. -/
def finishLoad (calls : LoadCalls) (raw : Value) (disk : Disk) :
    Disk × Option RegionsStore :=
  let store := storeOf raw calls.uuid calls.now
  if isLegacy raw || hasSemanticCorruption raw then
    match saveRegionsStore calls.fails store disk with
    | (disk, true) => (disk, some store)
    | (disk, false) => (disk, none)
  else
    (disk, some store)

/-- No store is returned when a call throws. -/
def loadRegionsStore (calls : LoadCalls) (disk : Disk) :
    Disk × Option RegionsStore :=
  match readJsonState calls.fails disk with
  | (disk, none) => (disk, none)
  | (disk, some raw) =>
      if hasSemanticCorruption raw then
        match preserveInvalidJsonState calls.fails disk with
        | (disk, true) => finishLoad calls raw disk
        | (disk, false) => (disk, none)
      else
        finishLoad calls raw disk

/-- `mutateRegionsStore` and `reconcilePositionWarmSources`. -/
def transact (calls : LoadCalls) (saving : Faults)
    (change : RegionsStore → Update) (disk : Disk) :
    Disk × Option RegionsStore :=
  match loadRegionsStore calls disk with
  | (disk, none) => (disk, none)
  | (disk, some store) =>
      match change store with
      | .throw => (disk, none)
      | .keep => (disk, some store)
      | .save changed =>
          match saveRegionsStore saving changed disk with
          | (disk, true) => (disk, some changed)
          | (disk, false) => (disk, none)

/-! ## Sessions -/

/-- The disk, and the store which the latest transaction has returned. -/
structure Session where
  disk : Disk
  store : RegionsStore

inductive SessionLabel where
  | load (calls : LoadCalls)
  | request (request : Request) (calls : LoadCalls) (saving : Faults)

namespace Session

def keep (session : Session) (result : Disk × Option RegionsStore) :
    Session where
  disk := result.1
  store := result.2.getD session.store

/-- A refused request leaves everything as it is. -/
def step (sourceById : SourceLookup) (session : Session) :
    SessionLabel → Option Session
  | .load calls => some (session.keep (loadRegionsStore calls session.disk))
  | .request request calls saving =>
      match request.transaction sourceById with
      | .error _ => some session
      | .ok change =>
          if request.isFresh session.store then
            some (session.keep (transact calls saving change session.disk))
          else
            none

end Session

def sessions (sourceById : SourceLookup) : Machine Session SessionLabel where
  initial := fun session => ∃ calls disk,
    loadRegionsStore calls disk = (session.disk, some session.store)
  step := Session.step sourceById

/-! ## Failed calls -/

theorem saveRegionsStore_cases {fails : Faults} {store : RegionsStore}
    {disk after : Disk} {written : Bool}
    (saved : saveRegionsStore fails store disk = (after, written)) :
    (written = false ∧ after.file = disk.file) ∨
      (written = true ∧ after = disk.replaced store.toValue) := by
  unfold saveRegionsStore writeJsonState at saved
  split at saved
  · cases saved
    exact .inl ⟨rfl, rfl⟩
  · split at saved
    · split at saved
      · cases saved
        exact .inl ⟨rfl, rfl⟩
      · cases saved
        exact .inl ⟨rfl, rfl⟩
    · cases saved
      exact .inr ⟨rfl, rfl⟩

theorem preserveInvalidJsonState_file (fails : Faults) (disk : Disk) :
    (preserveInvalidJsonState fails disk).1.file = disk.file := by
  unfold preserveInvalidJsonState
  split
  · rfl
  · rfl

theorem readJsonState_object {fails : Faults} {disk : Disk}
    {members : List (String × Value)}
    (held : disk.file = some (.json (.object members))) :
    readJsonState fails disk =
      if fails .read then (disk, none)
      else (disk, some (.object members)) := by
  unfold readJsonState
  rw [held]

theorem finishLoad_cases {calls : LoadCalls} {raw : Value}
    {disk after : Disk} {found : Option RegionsStore}
    (finished : finishLoad calls raw disk = (after, found)) :
    (found = none ∧ after.file = disk.file) ∨
      (found = some (storeOf raw calls.uuid calls.now) ∧
        (after = disk ∧ isLegacy raw = false ∧
            hasSemanticCorruption raw = false ∨
          after = disk.replaced
            (storeOf raw calls.uuid calls.now).toValue)) := by
  unfold finishLoad at finished
  dsimp only at finished
  split at finished
  · split at finished
    · next written =>
        cases finished
        rcases saveRegionsStore_cases written with ⟨impossible, -⟩ | ⟨-, same⟩
        · cases impossible
        · exact .inr ⟨rfl, .inr same⟩
    · next failed =>
        cases finished
        rcases saveRegionsStore_cases failed with ⟨-, same⟩ | ⟨impossible, -⟩
        · exact .inl ⟨rfl, same⟩
        · cases impossible
  · next untouched =>
      cases finished
      simp only [Bool.or_eq_true, not_or, Bool.not_eq_true] at untouched
      exact .inr ⟨rfl, .inl ⟨rfl, untouched⟩⟩

/-- What a load leaves of a root object. -/
theorem loadRegionsStore_cases {calls : LoadCalls} {disk after : Disk}
    {members : List (String × Value)} {found : Option RegionsStore}
    (held : disk.file = some (.json (.object members)))
    (loaded : loadRegionsStore calls disk = (after, found)) :
    (found = none ∧ after.file = disk.file) ∨
      (found = some (storeOf (.object members) calls.uuid calls.now) ∧
        (after.file = disk.file ∧ isLegacy (.object members) = false ∧
            hasSemanticCorruption (.object members) = false ∨
          after.file = some (.json
            (storeOf (.object members) calls.uuid calls.now).toValue))) := by
  unfold loadRegionsStore at loaded
  rw [readJsonState_object held] at loaded
  by_cases failed : calls.fails .read = true
  · rw [if_pos failed] at loaded
    cases loaded
    exact .inl ⟨rfl, rfl⟩
  · rw [if_neg failed] at loaded
    dsimp only at loaded
    split at loaded
    · have kept := preserveInvalidJsonState_file calls.fails disk
      split at loaded
      · next copied preserved =>
          rw [preserved] at kept
          rcases finishLoad_cases loaded with ⟨none, same⟩ | ⟨some, wrote⟩
          · exact .inl ⟨none, same.trans kept⟩
          · refine .inr ⟨some, ?_⟩
            rcases wrote with ⟨same, settled⟩ | same
            · rw [same]
              exact .inl ⟨kept, settled⟩
            · rw [same]
              exact .inr rfl
      · next refused =>
          cases loaded
          rw [refused] at kept
          exact .inl ⟨rfl, kept⟩
    · rcases finishLoad_cases loaded with unchanged | ⟨some, wrote⟩
      · exact .inl unchanged
      · refine .inr ⟨some, ?_⟩
        rcases wrote with ⟨same, settled⟩ | same
        · rw [same]
          exact .inl ⟨rfl, settled⟩
        · rw [same]
          exact .inr rfl

/-! ## Reloading -/

/-- A file which needs neither a migration nor a copy, and the store of it. -/
def IsSettled (disk : Disk) (store : RegionsStore) : Prop :=
  ∃ members, disk.file = some (.json (.object members)) ∧
    isLegacy (.object members) = false ∧
    hasSemanticCorruption (.object members) = false ∧
    normalizeStore (.object members) = store

/-- A load of the file returns the store and leaves the disk as it is, also
when every other call would fail. -/
structure ReloadsEqual (disk : Disk) (store : RegionsStore) : Prop where
  notMigrated : ∀ raw, disk.file = some (.json raw) → isLegacy raw = false
  notCorrupt : ∀ raw, disk.file = some (.json raw) →
    hasSemanticCorruption raw = false
  reloads : ∀ calls : LoadCalls, calls.fails .read = false →
    loadRegionsStore calls disk = (disk, some store)

namespace IsSettled

variable {disk : Disk} {store : RegionsStore}

theorem isStored (settled : IsSettled disk store) : IsStored store := by
  obtain ⟨members, -, -, -, same⟩ := settled
  rw [← same]
  exact isStored_normalizeStore _

theorem load (settled : IsSettled disk store) (calls : LoadCalls) :
    loadRegionsStore calls disk =
      if calls.fails .read then (disk, none) else (disk, some store) := by
  obtain ⟨members, held, notLegacy, notCorrupt, same⟩ := settled
  have read : storeOf (.object members) calls.uuid calls.now = store := by
    unfold storeOf
    rw [notLegacy]
    exact same
  unfold loadRegionsStore
  rw [readJsonState_object held]
  split
  · next failed =>
      split at failed
      · next unread =>
          cases failed
          rw [if_pos unread]
      · cases failed
  · next raw found =>
      split at found
      · cases found
      · next readable =>
          cases found
          rw [if_neg readable, notCorrupt]
          unfold finishLoad
          rw [notLegacy, notCorrupt, read]
          rfl

theorem reloadsEqual (settled : IsSettled disk store) :
    ReloadsEqual disk store := by
  constructor
  · intro raw held
    obtain ⟨members, present, notLegacy, -⟩ := settled
    rw [present] at held
    cases held
    exact notLegacy
  · intro raw held
    obtain ⟨members, present, -, notCorrupt, -⟩ := settled
    rw [present] at held
    cases held
    exact notCorrupt
  · intro calls readable
    rw [settled.load calls, readable]
    rfl

/-- A stored store which has been written. -/
theorem of_written {disk : Disk} {store : RegionsStore}
    (stored : IsStored store)
    (held : disk.file = some (.json store.toValue)) :
    IsSettled disk store := by
  exact ⟨_, held, store.isLegacy_toValue, hasSemanticCorruption_toValue stored,
    normalizeStore_toValue stored⟩

end IsSettled

/-! ## Runs -/

section Runs

variable {sourceById : SourceLookup}

/-- What a load of an ordered root leaves is settled. -/
theorem isSettled_of_loaded {calls : LoadCalls} {disk after : Disk}
    {members : List (String × Value)} {store : RegionsStore}
    (held : disk.file = some (.json (.object members)))
    (ordered : ¬ MisorderedZooms (.object members))
    (loaded : loadRegionsStore calls disk = (after, some store)) :
    IsSettled after store := by
  rcases loadRegionsStore_cases held loaded with ⟨impossible, -⟩ | ⟨same, file⟩
  · cases impossible
  · obtain rfl := Option.some.inj same
    rcases file with ⟨unchanged, notLegacy, notCorrupt⟩ | written
    · refine ⟨members, unchanged.trans held, notLegacy, notCorrupt, ?_⟩
      unfold storeOf
      rw [notLegacy]
      rfl
    · exact IsSettled.of_written (isStored_storeOf ordered) written

theorem IsSettled.of_file {disk after : Disk} {store : RegionsStore}
    (settled : IsSettled disk store) (same : after.file = disk.file) :
    IsSettled after store := by
  obtain ⟨members, held, rest⟩ := settled
  exact ⟨members, same.trans held, rest⟩

/-- A transaction which throws leaves a settled file as it is, and one which
does not leaves it with the store which it returns. -/
theorem IsSettled.transact {disk : Disk} {store : RegionsStore}
    (settled : IsSettled disk store) {change : RegionsStore → Update}
    (keeps : ∀ changed, change store = .save changed → IsStored changed)
    (calls : LoadCalls) (saving : Faults) :
    IsSettled (Regions.transact calls saving change disk).1
      ((Regions.transact calls saving change disk).2.getD store) := by
  unfold Regions.transact
  rw [settled.load calls]
  by_cases failed : calls.fails .read = true
  · rw [if_pos failed]
    exact settled
  · rw [if_neg failed]
    dsimp only
    cases changes : change store with
    | throw => exact settled
    | keep => exact settled
    | save changed =>
        dsimp only
        cases saved : saveRegionsStore saving changed disk with
        | mk after written =>
            rcases saveRegionsStore_cases saved with ⟨none, same⟩ | ⟨some, same⟩
            · rw [none]
              exact settled.of_file same
            · rw [some, same]
              apply IsSettled.of_written (keeps changed changes)
              rfl

theorem isSettled_step (plain : HasPlainIds sourceById)
    (session : Session) (label : SessionLabel) (next : Session)
    (settled : IsSettled session.disk session.store)
    (stepped : (sessions sourceById).step session label = some next) :
    IsSettled next.disk next.store := by
  cases label with
  | load calls =>
      cases stepped
      unfold Session.keep
      rw [settled.load calls]
      split
      · exact settled
      · exact settled
  | request request calls saving =>
      unfold sessions Session.step at stepped
      dsimp only at stepped
      split at stepped
      · cases stepped
        exact settled
      · next change accepted =>
          split at stepped
          · next fresh =>
              cases stepped
              apply settled.transact
              intro changed saves
              exact request.isStored plain accepted fresh settled.isStored saves
          · cases stepped

theorem reloadsEqual_of_run (plain : HasPlainIds sourceById)
    {start finish : Session} {labels : List SessionLabel}
    (settled : IsSettled start.disk start.store)
    (run : (sessions sourceById).exec start labels = some finish) :
    ReloadsEqual finish.disk finish.store := by
  apply IsSettled.reloadsEqual
  exact Machine.exec_preserves (motive := fun session : Session =>
    IsSettled session.disk session.store) (isSettled_step plain) run settled

end Runs

/-! ## Saved regions -/

/-- The regions which a load finds in a file. -/
def heldRegions (file : Option Document) : List SavedRegion :=
  match file with
  | some (.json raw) => normalizeRegions (raw.get "regions")
  | _ => []

theorem normalizeRegions_of_hasRegions {raw : Value}
    (none : hasRegions raw = false) :
    normalizeRegions (raw.get "regions") = [] := by
  unfold hasRegions at none
  unfold normalizeRegions
  split at none
  · cases none
  · rfl

/-- The store of a load has every valid region of the root. -/
theorem normalizeRegions_subset_storeOf {raw : Value} {uuid : Uuid}
    {now : DateNow} :
    normalizeRegions (raw.get "regions") ⊆ (storeOf raw uuid now).regions := by
  unfold storeOf
  split
  · unfold migrateV2
    cases present : hasRegions raw with
    | true => exact List.subset_append_left _ _
    | false =>
        rw [normalizeRegions_of_hasRegions present]
        exact List.nil_subset _
  · exact List.Subset.refl _

/-- And a file to which it is written holds them. -/
theorem heldRegions_subset_written {raw : Value} {uuid : Uuid}
    {now : DateNow} :
    normalizeRegions (raw.get "regions") ⊆
      heldRegions (some (.json (storeOf raw uuid now).toValue)) := by
  by_cases misordered : MisorderedZooms raw
  · obtain ⟨⟨bbox, sources⟩, boxed⟩ := Option.isSome_iff_exists.mp
      misordered.boxed
    rw [normalizeRegions_of_hasRegions (legacyBox_spec boxed).1]
    exact List.nil_subset _
  · have stored : IsStored (storeOf raw uuid now) :=
      isStored_storeOf misordered
    have same : heldRegions (some (.json (storeOf raw uuid now).toValue)) =
        (storeOf raw uuid now).regions :=
      congrArg RegionsStore.regions (normalizeStore_toValue stored)
    rw [same]
    exact normalizeRegions_subset_storeOf

theorem heldRegions_load {calls : LoadCalls} {disk after : Disk}
    {members : List (String × Value)} {found : Option RegionsStore}
    (held : disk.file = some (.json (.object members)))
    (loaded : loadRegionsStore calls disk = (after, found)) :
    heldRegions disk.file ⊆ heldRegions after.file := by
  rcases loadRegionsStore_cases held loaded with ⟨-, same⟩ | ⟨-, same | written⟩
  · rw [same]
    exact List.Subset.refl _
  · rw [same.1]
    exact List.Subset.refl _
  · rw [held, written]
    exact heldRegions_subset_written

/-- A transaction which throws has lost no valid region. -/
theorem heldRegions_transact {calls : LoadCalls} {saving : Faults}
    {change : RegionsStore → Update} {disk after : Disk}
    {members : List (String × Value)}
    (held : disk.file = some (.json (.object members)))
    (thrown : transact calls saving change disk = (after, none)) :
    heldRegions disk.file ⊆ heldRegions after.file := by
  unfold transact at thrown
  split at thrown
  · next loaded =>
      cases thrown
      exact heldRegions_load held loaded
  · next loaded =>
      have kept := heldRegions_load held loaded
      split at thrown
      · cases thrown
        exact kept
      · cases thrown
      · split at thrown
        · cases thrown
        · next failed =>
            cases thrown
            rcases saveRegionsStore_cases failed with
              ⟨-, same⟩ | ⟨impossible, -⟩
            · rw [same]
              exact kept
            · cases impossible

/-! ## Stability -/

/-- The store of a root is stable unless a migrated box has misordered zooms,
and so is every store which accepted requests make of it.  A load or a save
which throws leaves the file as it was, and a transaction which throws leaves
every valid region in it. -/
theorem store_stable {sourceById : SourceLookup}
    (plain : HasPlainIds sourceById) :
    (∀ calls disk members loaded store,
      disk.file = some (.json (.object members)) →
      loadRegionsStore calls disk = (loaded, some store) →
        (∀ fails saved, saveRegionsStore fails store loaded = (saved, true) →
          (ReloadsEqual saved store ↔ ¬ MisorderedZooms (.object members))) ∧
        (¬ MisorderedZooms (.object members) → ∀ labels finish,
          (sessions sourceById).exec ⟨loaded, store⟩ labels = some finish →
            ReloadsEqual finish.disk finish.store)) ∧
    (∀ calls disk members failed,
      disk.file = some (.json (.object members)) →
      loadRegionsStore calls disk = (failed, none) →
        failed.file = disk.file) ∧
    (∀ fails store disk failed,
      saveRegionsStore fails store disk = (failed, false) →
        failed.file = disk.file) ∧
    (∀ calls saving change disk members failed,
      disk.file = some (.json (.object members)) →
      transact calls saving change disk = (failed, none) →
        heldRegions disk.file ⊆ heldRegions failed.file) := by
  refine ⟨?_, ?_, ?_, ?_⟩
  · intro calls disk members loaded store held read
    constructor
    · intro fails saved saves
      rcases saveRegionsStore_cases saves with ⟨impossible, -⟩ | ⟨-, same⟩
      · cases impossible
      · have file : saved.file = some (.json store.toValue) := by
          rw [same]
          rfl
        constructor
        · intro reloads misordered
          rcases loadRegionsStore_cases held read with ⟨none, -⟩ | ⟨found, -⟩
          · cases none
          · obtain rfl := Option.some.inj found
            have corrupt : hasSemanticCorruption (storeOf (.object members)
                calls.uuid calls.now).toValue = true :=
              hasSemanticCorruption_of_misordered misordered
            rw [reloads.notCorrupt _ file] at corrupt
            cases corrupt
        · intro ordered
          apply IsSettled.reloadsEqual
          have settled := isSettled_of_loaded held ordered read
          exact IsSettled.of_written settled.isStored file
    · intro ordered labels finish run
      exact reloadsEqual_of_run plain
        (isSettled_of_loaded held ordered read) run
  · intro calls disk members failed held thrown
    rcases loadRegionsStore_cases held thrown with ⟨-, same⟩ | ⟨found, -⟩
    · exact same
    · cases found
  · intro fails store disk failed thrown
    rcases saveRegionsStore_cases thrown with ⟨-, same⟩ | ⟨impossible, -⟩
    · exact same
    · cases impossible
  · intro calls saving change disk members failed held thrown
    exact heldRegions_transact held thrown

/-! ## A box of version 2 -/

/-- A legacy box with a `minzoom` and without a `maxzoom`. -/
def legacyMembers (minzoom : ℚ) : List (String × Value) :=
  [("bbox", .array [.ofRat 0, .ofRat 0, .ofRat 1, .ofRat 1]),
    ("sources", .array [.string (utf16 "osm")]),
    ("minzoom", .ofRat minzoom)]

def legacyDisk (minzoom : ℚ) : Disk where
  file := some (.json (.object (legacyMembers minzoom)))
  copies := []
  temporaries := 0

def exampleUuid : Uuid where
  text := List.replicate 36 0x61
  length_eq := rfl
  plain := by
    intro unit member
    rw [List.eq_of_mem_replicate member]
    decide

/-- Calls which do not fail. -/
def exampleCalls : LoadCalls where
  fails := fun _ => false
  uuid := exampleUuid
  now := ⟨1700000000000, by decide⟩

/-- The region of the migration is gone at the load after it was saved, which
finds the file corrupt. -/
theorem migrated_region_lost :
    ∃ loaded store saved,
      loadRegionsStore exampleCalls (legacyDisk 15) = (loaded, some store) ∧
      saveRegionsStore exampleCalls.fails store loaded = (saved, true) ∧
      store.regions.length = 1 ∧
      hasSemanticCorruption store.toValue = true ∧
      (loadRegionsStore exampleCalls saved).2 =
        some { store with regions := [] } ∧
      ¬ ReloadsEqual saved store := by
  refine ⟨_, _, _, rfl, rfl, ?_, ?_, ?_, ?_⟩
  · rfl
  · rfl
  · rfl
  · intro reloads
    have intact := reloads.notCorrupt _ rfl
    have corrupt : hasSemanticCorruption
        (storeOf (.object (legacyMembers 15)) exampleCalls.uuid
          exampleCalls.now).toValue = true := by
      rfl
    rw [corrupt] at intact
    cases intact

/-- A catalog of one source. -/
def exampleSources : SourceLookup :=
  fun id => if id = utf16 "osm" then some ⟨none⟩ else none

theorem hasPlainIds_exampleSources : HasPlainIds exampleSources := by
  intro id known
  unfold exampleSources at known
  split at known
  · next same =>
      rw [same]
      decide
  · cases known

/-- The body of a request for a region over the box. -/
def exampleBody : Value :=
  .object
    [("bbox", .array [.ofRat 0, .ofRat 0, .ofRat 1, .ofRat 1]),
      ("sourceIds", .array [.string (utf16 "osm")]),
      ("minzoom", .ofRat 3),
      ("maxzoom", .ofRat 9),
      ("name", .string (utf16 " Harbour "))]

def otherUuid : Uuid where
  text := List.replicate 36 0x62
  length_eq := rfl
  plain := by
    intro unit member
    rw [List.eq_of_mem_replicate member]
    decide

def exampleLabels : List SessionLabel :=
  [.request (.createRegion (some exampleBody) otherUuid exampleCalls.now)
      exampleCalls exampleCalls.fails,
    .request (.cacheConfig (some (.object [("ttlDays", .ofRat 7)])))
      exampleCalls (fun call => call == .rename),
    .load exampleCalls]

theorem store_stable_of_box :
    ∃ loaded store finish,
      loadRegionsStore exampleCalls (legacyDisk 8) = (loaded, some store) ∧
      (sessions exampleSources).exec ⟨loaded, store⟩ exampleLabels =
        some finish ∧
      finish.store.regions.length = 2 ∧
      ReloadsEqual finish.disk finish.store := by
  have ordered : ¬ MisorderedZooms (.object (legacyMembers 8)) := by
    intro misordered
    have low := rawMaxzoom_lt_rawMinzoom_iff.mpr misordered.misordered
    revert low
    decide
  refine ⟨_, _, _, rfl, rfl, ?_, ?_⟩
  · rfl
  · have stable := (store_stable hasPlainIds_exampleSources).1 exampleCalls
      (legacyDisk 8) (legacyMembers 8) _ _ rfl rfl
    exact stable.2 ordered exampleLabels _ rfl

end ChartLocker.Plugin.Regions
