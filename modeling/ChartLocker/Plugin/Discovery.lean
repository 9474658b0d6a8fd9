import ChartLocker.Plugin.ArchiveRoute
import ChartLocker.Warm.Snapshots

/-!
# Chart discovery

`performRescanCharts` goes through the entries of the charts directory, drops
those which are unsafe or whose identifiers collide, decodes the others and
publishes the records.  A decoding is reused from the record which the
registry has, when that record is about the same file.

The disk does not change during a scan, but the directory may be read in any
order.
-/

namespace ChartLocker.Plugin.Charts

open Library Doubles
open Warm (controlCharacter)

/-! ## The disk -/

inductive EntryKind where
  | file
  | symbolicLink
  | other
deriving DecidableEq, Repr

structure Entry where
  name : List Char
  kind : EntryKind
deriving DecidableEq, Repr

/-- What the calls of a scan find.  Paths in the charts directory are told by
the name of the file. -/
structure Disk (Decoded : Type) where
  /-- The result of `chartsRootIsSafe`. -/
  rootIsSafe : Bool
  directory : Option (List Char)
  realpath : List Char → Option (List Char)
  stat : List Char → Option FileInfo
  decode : List Char → Except String Decoded

/-- A directory as it is read, in some order. -/
structure Listing where
  entries : List Entry
  distinct : (entries.map Entry.name).Nodup

abbrev ChartNamer (Decoded : Type) := List Char → Decoded → ChartNaming

/-! ## Steps of a scan -/

/-- `/\.pmtiles$/i`. -/
def isPmtilesName (name : List Char) : Bool :=
  ".pmtiles".toList.isSuffixOf (name.map Char.toLower)

def hasControl (name : List Char) : Bool :=
  name.any controlCharacter

/-- `diagnosticFileName`, with its bound counted in characters. -/
def diagnosticFileName (name : List Char) : List Char :=
  let printable := name.map fun char =>
    if controlCharacter char then '?' else char
  let bounded := printable.take 160
  if bounded = [] then "<invalid filename>".toList else bounded

/-- The names which the scan has found. -/
def discoveredEntries (entries : List Entry) : List (List Char) :=
  ((entries.filter fun entry =>
    entry.kind == .file || entry.kind == .symbolicLink).filter fun entry =>
      isPmtilesName entry.name).map Entry.name

section Scan

variable {Decoded : Type} (disk : Disk Decoded)

def containedRealPath (directory fileName : List Char) :
    Option (List Char) :=
  (disk.realpath fileName).bind fun fileReal =>
    let required := if directory.getLast? = some '/' then directory
      else directory ++ ['/']
    if required.isPrefixOf fileReal then some fileReal else none

/-- Where the file of a name is, if it is safe. -/
def safePath (fileName : List Char) : Option (List Char) :=
  disk.directory.bind fun directory =>
    containedRealPath disk directory fileName

def readFileIdentity (filePath : List Char) : Option FileIdentity :=
  (disk.stat filePath).bind fun info =>
    if info.isFile ∧ Double.isSafeInteger (Double.ofInt info.size) then
      some
        { mtimeMs := info.mtimeMs
          mtimeNs := info.mtimeNs
          device := info.dev
          inode := info.ino
          bytes := info.size }
    else
      none

def sameIdentity (left right : FileIdentity) : Bool :=
  left.mtimeNs == right.mtimeNs && left.device == right.device &&
    left.inode == right.inode && left.bytes == right.bytes

/-- The stored record is about the file with this identity. -/
def isAbout (record : ChartRecord Decoded) (identity : FileIdentity) : Bool :=
  record.mtimeNs == some identity.mtimeNs &&
    record.device == some identity.device &&
    record.inode == some identity.inode &&
    record.bytes == some identity.bytes

/-- `decode`, with the check that the file is the same afterwards. -/
def decodeUnchanged (filePath : List Char) (identity : FileIdentity) :
    Except String Decoded :=
  match disk.decode filePath with
  | .error error => .error error
  | .ok decoded =>
      match readFileIdentity disk filePath with
      | none => .error "archive changed while it was being decoded"
      | some afterDecode =>
          if sameIdentity identity afterDecode then
            .ok decoded
          else
            .error "archive changed while it was being decoded"

/-- The decoding of a file, from the stored record if it is about it. -/
def decodedOf (existing : Option (ChartRecord Decoded))
    (filePath : List Char) (identity : FileIdentity) :
    Except String Decoded :=
  match existing with
  | none => decodeUnchanged disk filePath identity
  | some record =>
      if isAbout record identity then
        .ok record.decoded
      else
        decodeUnchanged disk filePath identity

def chartRecord (namer : ChartNamer Decoded) (fileName filePath : List Char)
    (identity : FileIdentity) (decoded : Decoded) : ChartRecord Decoded where
  identifier := nameToId fileName
  fileName := fileName
  filePath := filePath
  naming := namer fileName decoded
  decoded := decoded
  mtimeMs := some identity.mtimeMs
  mtimeNs := some identity.mtimeNs
  device := some identity.device
  inode := some identity.inode
  bytes := some identity.bytes

/-- The names with the identifier of a file. -/
def idCount (fileNames : List (List Char)) (id : List Char) : ℕ :=
  fileNames.countP fun fileName => nameToId fileName == id

/-- One turn of the loop over the safe entries: a record or an error. -/
def examine (namer : ChartNamer Decoded) (registry : ChartRegistry Decoded)
    (safeNames : List (List Char)) (fileName filePath : List Char) :
    Except String (ChartRecord Decoded) :=
  let id := nameToId fileName
  if 1 < idCount safeNames id then
    .error ("chart identifier collision: " ++ String.ofList id)
  else
    match readFileIdentity disk filePath with
    | none => .error "cannot stat a regular archive with a safe file size"
    | some identity =>
        match decodedOf disk (registry.record id) filePath identity with
        | .error error => .error error
        | .ok decoded =>
            .ok (chartRecord namer fileName filePath identity decoded)

/-- The safe entries among the discovered ones. -/
def safeEntries (entries : List Entry) :
    List (List Char × List Char) :=
  ((discoveredEntries entries).filter fun fileName =>
    !hasControl fileName).filterMap fun fileName =>
      (safePath disk fileName).map fun filePath => (fileName, filePath)

def examined (namer : ChartNamer Decoded) (registry : ChartRegistry Decoded)
    (entries : List Entry) :
    List (List Char × Except String (ChartRecord Decoded)) :=
  let safe := safeEntries disk entries
  safe.map fun entry =>
    (entry.1, examine disk namer registry (safe.map Prod.fst) entry.1 entry.2)

def scanRecords (namer : ChartNamer Decoded)
    (registry : ChartRegistry Decoded) (entries : List Entry) :
    List (ChartRecord Decoded) :=
  (examined disk namer registry entries).filterMap fun entry =>
    entry.2.toOption

/-- The errors of a scan in the order in which they are set. -/
def scanErrors (namer : ChartNamer Decoded) (registry : ChartRegistry Decoded)
    (entries : List Entry) : List (List Char × String) :=
  let names := discoveredEntries entries
  ((names.filter hasControl).map fun fileName =>
    (diagnosticFileName fileName, "filename contains control characters")) ++
  ((names.filter fun fileName =>
    !hasControl fileName && (safePath disk fileName).isNone).map
      fun fileName => (fileName,
        "archive is broken or resolves outside the charts directory")) ++
  (examined disk namer registry entries).filterMap fun entry =>
    match entry.2 with
    | .error error => some (entry.1, error)
    | .ok _ => none

/-- `performRescanCharts`.  A directory which cannot be read has no listing,
and a stopped scan publishes nothing. -/
def performRescanCharts (namer : ChartNamer Decoded) (shouldPublish : Bool)
    (listing : Option Listing) (registry : ChartRegistry Decoded) :
    ChartRegistry Decoded :=
  if !disk.rootIsSafe then
    if shouldPublish then
      .replace [] [("<charts-directory>".toList,
        "charts directory escapes the Signal K configuration directory")]
    else
      registry
  else
    let entries := (listing.map Listing.entries).getD []
    if shouldPublish then
      .replace (scanRecords disk namer registry entries)
        (scanErrors disk namer registry entries)
    else
      registry

end Scan

/-! ## What is published -/

section Published

variable {Decoded : Type} (disk : Disk Decoded)

/-- The directory has an archive of this name, which resolves to a path inside
of it. -/
def IsSafeEntry (entries : List Entry) (fileName filePath : List Char) :
    Prop :=
  ∃ entry ∈ entries, entry.kind ≠ .other ∧ isPmtilesName entry.name = true ∧
    hasControl entry.name = false ∧ entry.name = fileName ∧
    safePath disk fileName = some filePath

/-- The records which a scan publishes, whatever the order of the entries and
the records before it. -/
structure Publishable (entries : List Entry) (fileName filePath : List Char)
    (identity : FileIdentity) (decoded : Decoded) : Prop where
  safe : IsSafeEntry disk entries fileName filePath
  alone : ∀ other otherPath, IsSafeEntry disk entries other otherPath →
    nameToId other = nameToId fileName → other = fileName
  regular : readFileIdentity disk filePath = some identity
  decodes : disk.decode filePath = .ok decoded

/-- A record whose decoding is the one of every file which it is about. -/
def Reliable (record : ChartRecord Decoded) : Prop :=
  ∀ filePath identity, readFileIdentity disk filePath = some identity →
    isAbout record identity = true →
      disk.decode filePath = .ok record.decoded

variable {disk} {entries : List Entry} {fileName filePath : List Char}

theorem kept_iff {kind : EntryKind} :
    (kind == .file || kind == .symbolicLink) = true ↔ kind ≠ .other := by
  cases kind <;> decide

theorem mem_safeEntries :
    (fileName, filePath) ∈ safeEntries disk entries ↔
      IsSafeEntry disk entries fileName filePath := by
  unfold safeEntries discoveredEntries IsSafeEntry
  simp only [List.mem_filterMap, List.mem_filter, List.mem_map,
    Option.map_eq_some_iff, Prod.mk.injEq, kept_iff]
  constructor
  · intro ⟨name, ⟨⟨entry, ⟨⟨member, kind⟩, suffix⟩, same⟩, printable⟩,
      path, safe, sameName, samePath⟩
    rw [← sameName, ← samePath]
    rw [← same] at printable safe ⊢
    exact ⟨entry, member, kind, suffix, by simpa using printable, rfl, safe⟩
  · intro ⟨entry, member, kind, suffix, printable, same, safe⟩
    refine ⟨fileName, ⟨⟨entry, ⟨⟨member, kind⟩, suffix⟩, same⟩, ?_⟩,
      filePath, safe, rfl, rfl⟩
    rw [← same, printable]
    rfl

theorem IsSafeEntry.path_unique {other : List Char}
    (left : IsSafeEntry disk entries fileName filePath)
    (right : IsSafeEntry disk entries fileName other) : filePath = other := by
  obtain ⟨_, _, _, _, _, _, leftPath⟩ := left
  obtain ⟨_, _, _, _, _, _, rightPath⟩ := right
  rw [leftPath] at rightPath
  exact Option.some.inj rightPath

/-- The names of the safe entries, of which no two are the same. -/
theorem nodup_safeNames (distinct : (entries.map Entry.name).Nodup) :
    ((safeEntries disk entries).map Prod.fst).Nodup := by
  have found : (discoveredEntries entries).Nodup := by
    apply List.Nodup.sublist _ distinct
    exact (List.filter_sublist.trans List.filter_sublist).map Entry.name
  unfold safeEntries
  rw [List.map_filterMap]
  apply List.Nodup.filterMap
  · intro left right name leftName rightName
    simp only [Option.map_map, Option.mem_def, Option.map_eq_some_iff,
      Function.comp_apply] at leftName rightName
    obtain ⟨_, _, same⟩ := leftName
    obtain ⟨_, _, other⟩ := rightName
    exact same.trans other.symm
  · exact List.Nodup.sublist List.filter_sublist found

theorem idCount_le_one {names : List (List Char)} (nodup : names.Nodup)
    (member : fileName ∈ names) :
    ¬1 < idCount names (nameToId fileName) ↔
      ∀ other ∈ names, nameToId other = nameToId fileName →
        other = fileName := by
  unfold idCount
  rw [List.countP_eq_length_filter]
  constructor
  · intro few other listed same
    by_contra different
    have pair : [other, fileName].Nodup := by
      simp [different]
    have inside : [other, fileName] ⊆ names.filter fun candidate =>
        nameToId candidate == nameToId fileName := by
      intro candidate either
      rcases List.mem_pair.mp either with rfl | rfl
      · exact List.mem_filter.mpr ⟨listed, by simp [same]⟩
      · exact List.mem_filter.mpr ⟨member, by simp⟩
    exact few (List.subperm_of_subset pair inside).length_le
  · intro alone
    have inside : (names.filter fun candidate =>
        nameToId candidate == nameToId fileName) ⊆ [fileName] := by
      intro candidate counted
      obtain ⟨listed, same⟩ := List.mem_filter.mp counted
      exact List.mem_singleton.mpr
        (alone candidate listed (beq_iff_eq.mp same))
    have few := (List.subperm_of_subset (nodup.filter _) inside).length_le
    rw [List.length_singleton] at few
    omega

theorem mem_safeNames :
    fileName ∈ (safeEntries disk entries).map Prod.fst ↔
      ∃ filePath, IsSafeEntry disk entries fileName filePath := by
  rw [List.mem_map]
  constructor
  · intro ⟨⟨_, filePath⟩, member, same⟩
    cases same
    exact ⟨filePath, mem_safeEntries.mp member⟩
  · intro ⟨filePath, safe⟩
    exact ⟨(fileName, filePath), mem_safeEntries.mpr safe, rfl⟩

theorem alone_iff (distinct : (entries.map Entry.name).Nodup)
    (safe : IsSafeEntry disk entries fileName filePath) :
    ¬1 < idCount ((safeEntries disk entries).map Prod.fst)
        (nameToId fileName) ↔
      ∀ other otherPath, IsSafeEntry disk entries other otherPath →
        nameToId other = nameToId fileName → other = fileName := by
  rw [idCount_le_one (nodup_safeNames distinct)
    (mem_safeNames.mpr ⟨filePath, safe⟩)]
  constructor
  · intro alone other otherPath safeOther
    exact alone other (mem_safeNames.mpr ⟨otherPath, safeOther⟩)
  · intro alone other member
    obtain ⟨otherPath, safeOther⟩ := mem_safeNames.mp member
    exact alone other otherPath safeOther

/-! ### The loop -/

theorem decodeUnchanged_eq {identity : FileIdentity}
    (regular : readFileIdentity disk filePath = some identity) :
    decodeUnchanged disk filePath identity = disk.decode filePath := by
  have same : sameIdentity identity identity = true := by
    simp [sameIdentity]
  unfold decodeUnchanged
  cases disk.decode filePath with
  | error error => rfl
  | ok decoded =>
      dsimp only
      rw [regular]
      exact if_pos same

/-- A reliable record changes nothing but the work. -/
theorem decodedOf_eq {identity : FileIdentity}
    {existing : Option (ChartRecord Decoded)}
    (reliable : ∀ record ∈ existing, Reliable disk record)
    (regular : readFileIdentity disk filePath = some identity) :
    decodedOf disk existing filePath identity = disk.decode filePath := by
  unfold decodedOf
  cases existing with
  | none => exact decodeUnchanged_eq regular
  | some record =>
      dsimp only
      split
      · next about =>
          exact (reliable record rfl filePath identity regular about).symm
      · exact decodeUnchanged_eq regular

section Records

variable {namer : ChartNamer Decoded} {registry : ChartRegistry Decoded}
  (reliable : ∀ record ∈ registry.records.rows, Reliable disk record)
include reliable

theorem examine_eq_ok {names : List (List Char)}
    {record : ChartRecord Decoded} :
    examine disk namer registry names fileName filePath = .ok record ↔
      ¬1 < idCount names (nameToId fileName) ∧
        ∃ identity decoded,
          readFileIdentity disk filePath = some identity ∧
          disk.decode filePath = .ok decoded ∧
          record = chartRecord namer fileName filePath identity decoded := by
  have trusted : ∀ record ∈ registry.record (nameToId fileName),
      Reliable disk record := by
    intro record found
    exact reliable record (KeyedTable.lookup_eq_some.mp found).1
  unfold examine
  dsimp only
  split
  · next collides =>
      constructor
      · intro impossible
        cases impossible
      · intro ⟨alone, _⟩
        exact absurd collides alone
  · next alone =>
      rw [and_iff_right alone]
      cases regular : readFileIdentity disk filePath with
      | none =>
          constructor
          · intro impossible
            cases impossible
          · intro ⟨_, _, impossible, _⟩
            cases impossible
      | some identity =>
          dsimp only
          rw [decodedOf_eq trusted regular]
          cases disk.decode filePath with
          | error error =>
              constructor
              · intro impossible
                cases impossible
              · intro ⟨_, _, _, impossible, _⟩
                cases impossible
          | ok decoded =>
              constructor
              · intro same
                cases same
                exact ⟨identity, decoded, rfl, rfl, rfl⟩
              · intro ⟨_, _, sameIdentity, sameDecoded, built⟩
                cases sameIdentity
                cases sameDecoded
                rw [built]

/-- A scan makes exactly the records which are to be published. -/
theorem mem_scanRecords (distinct : (entries.map Entry.name).Nodup)
    {record : ChartRecord Decoded} :
    record ∈ scanRecords disk namer registry entries ↔
      ∃ fileName filePath identity decoded,
        Publishable disk entries fileName filePath identity decoded ∧
        record = chartRecord namer fileName filePath identity decoded := by
  have turn : record ∈ scanRecords disk namer registry entries ↔
      ∃ fileName filePath, IsSafeEntry disk entries fileName filePath ∧
        examine disk namer registry
          ((safeEntries disk entries).map Prod.fst) fileName filePath =
            .ok record := by
    unfold scanRecords examined
    simp only [List.mem_filterMap, List.mem_map, ← mem_safeEntries]
    constructor
    · intro ⟨_, ⟨⟨fileName, filePath⟩, member, rfl⟩, kept⟩
      refine ⟨fileName, filePath, member, ?_⟩
      cases result : examine disk namer registry
        ((safeEntries disk entries).map Prod.fst) fileName filePath with
      | error error =>
          rw [result] at kept
          cases kept
      | ok found =>
          rw [result] at kept
          cases kept
          rfl
    · intro ⟨fileName, filePath, member, result⟩
      exact ⟨_, ⟨(fileName, filePath), member, rfl⟩, by rw [result]; rfl⟩
  rw [turn]
  constructor
  · intro ⟨fileName, filePath, safe, result⟩
    obtain ⟨single, identity, decoded, regular, decodes, built⟩ :=
      (examine_eq_ok reliable).mp result
    exact ⟨fileName, filePath, identity, decoded,
      ⟨safe, (alone_iff distinct safe).mp single, regular, decodes⟩, built⟩
  · intro ⟨fileName, filePath, identity, decoded, publishable, built⟩
    exact ⟨fileName, filePath, publishable.safe,
      (examine_eq_ok reliable).mpr
        ⟨(alone_iff distinct publishable.safe).mpr publishable.alone,
          identity, decoded, publishable.regular, publishable.decodes, built⟩⟩

/-- Only one file of an identifier is published, with one path, identity and
decoding. -/
theorem eq_of_mem_scanRecords (distinct : (entries.map Entry.name).Nodup)
    {left right : ChartRecord Decoded}
    (leftMember : left ∈ scanRecords disk namer registry entries)
    (rightMember : right ∈ scanRecords disk namer registry entries)
    (same : left.identifier = right.identifier) : left = right := by
  obtain ⟨leftName, leftPath, leftIdentity, leftDecoded, first, rfl⟩ :=
    (mem_scanRecords reliable distinct).mp leftMember
  obtain ⟨rightName, rightPath, rightIdentity, rightDecoded, second, rfl⟩ :=
    (mem_scanRecords reliable distinct).mp rightMember
  obtain rfl : leftName = rightName :=
    second.alone leftName leftPath first.safe same
  obtain rfl : leftPath = rightPath := first.safe.path_unique second.safe
  have identities := first.regular.symm.trans second.regular
  have decodings := first.decodes.symm.trans second.decodes
  cases identities
  cases decodings
  rfl

theorem mem_published {listing : Listing} {record : ChartRecord Decoded} :
    record ∈ (performRescanCharts disk namer true (some listing)
        registry).records.rows ↔
      disk.rootIsSafe = true ∧
        record ∈ scanRecords disk namer registry listing.entries := by
  unfold performRescanCharts
  cases disk.rootIsSafe with
  | false =>
      constructor
      · intro member
        cases member
      · intro ⟨impossible, _⟩
        cases impossible
  | true =>
      rw [and_iff_right rfl]
      change record ∈ ((scanRecords disk namer registry listing.entries).foldl
        KeyedTable.insertOrReplace .empty).rows ↔ _
      constructor
      · intro member
        rcases KeyedTable.mem_of_mem_foldl_insertOrReplace member with
          old | scanned
        · cases old
        · exact scanned
      · intro scanned
        have found := KeyedTable.lookup_foldl_insertOrReplace
          (.empty : KeyedTable (@ChartRecord.identifier Decoded))
          (fun other member same => eq_of_mem_scanRecords reliable
            listing.distinct member scanned same) (.inl scanned)
        exact (KeyedTable.lookup_eq_some.mp found).1

end Records

end Published

/-! ## Scan after scan -/

section Runs

variable {Decoded : Type} (meaning : FileIdentity → Except String Decoded)

/-- The identity of a file decides how it is decoded. -/
structure Means (disk : Disk Decoded) : Prop where
  decodes : ∀ filePath identity,
    readFileIdentity disk filePath = some identity →
      disk.decode filePath = meaning identity
  respects : ∀ left right, sameIdentity left right = true →
    meaning left = meaning right

/-- The registries after any scans, each of another state of the disk. -/
inductive Reached : ChartRegistry Decoded → Prop where
  | cleared : Reached ⟨.empty, .empty⟩
  | scanned (disk : Disk Decoded) (means : Means meaning disk)
      (namer : ChartNamer Decoded) (shouldPublish : Bool)
      (listing : Option Listing) (registry : ChartRegistry Decoded)
      (reached : Reached registry) :
      Reached (performRescanCharts disk namer shouldPublish listing registry)

/-- The decoding of a record is the one of its identity. -/
def IsMeant (record : ChartRecord Decoded) : Prop :=
  ∀ identity, isAbout record identity = true →
    meaning identity = .ok record.decoded

variable {meaning} {disk : Disk Decoded} {registry : ChartRegistry Decoded}

theorem IsMeant.reliable {record : ChartRecord Decoded}
    (meant : IsMeant meaning record) (means : Means meaning disk) :
    Reliable disk record := by
  intro filePath identity regular about
  rw [means.decodes filePath identity regular]
  exact meant identity about

theorem sameIdentity_of_isAbout {namer : ChartNamer Decoded}
    {fileName filePath : List Char} {identity other : FileIdentity}
    {decoded : Decoded}
    (about : isAbout (chartRecord namer fileName filePath identity decoded)
      other = true) : sameIdentity identity other = true := by
  simpa [isAbout, chartRecord, sameIdentity] using about

/-- A scan over a reliable registry makes records which mean their file. -/
theorem isMeant_of_mem_scanRecords (means : Means meaning disk)
    (reliable : ∀ record ∈ registry.records.rows, Reliable disk record)
    {namer : ChartNamer Decoded} {entries : List Entry}
    (distinct : (entries.map Entry.name).Nodup)
    {record : ChartRecord Decoded}
    (member : record ∈ scanRecords disk namer registry entries) :
    IsMeant meaning record := by
  obtain ⟨fileName, filePath, identity, decoded, publishable, rfl⟩ :=
    (mem_scanRecords reliable distinct).mp member
  intro other about
  calc
    meaning other = meaning identity :=
      (means.respects identity other (sameIdentity_of_isAbout about)).symm
    _ = disk.decode filePath :=
      (means.decodes filePath identity publishable.regular).symm
    _ = .ok decoded := publishable.decodes

theorem mem_of_mem_rescan {namer : ChartNamer Decoded} {shouldPublish : Bool}
    {listing : Option Listing} {record : ChartRecord Decoded}
    (member : record ∈ (performRescanCharts disk namer shouldPublish listing
      registry).records.rows) :
    record ∈ registry.records.rows ∨
      record ∈ scanRecords disk namer registry
        ((listing.map Listing.entries).getD []) := by
  unfold performRescanCharts at member
  split at member
  · split at member
    · cases member
    · exact .inl member
  · split at member
    · rcases KeyedTable.mem_of_mem_foldl_insertOrReplace member with
        old | scanned
      · cases old
      · exact .inr scanned
    · exact .inl member

theorem isMeant_of_reached (reached : Reached meaning registry) :
    ∀ record ∈ registry.records.rows, IsMeant meaning record := by
  induction reached with
  | cleared =>
      intro record member
      cases member
  | scanned disk means namer shouldPublish listing registry _ induction =>
      intro record member
      rcases mem_of_mem_rescan member with old | scanned
      · exact induction record old
      · have distinct : (((listing.map Listing.entries).getD []).map
            Entry.name).Nodup := by
          cases listing with
          | none => exact List.nodup_nil
          | some listing => exact listing.distinct
        exact isMeant_of_mem_scanRecords means
          (fun record member => (induction record member).reliable means)
          distinct scanned

/-- Whatever scans came before, the records which they left are reliable. -/
theorem reliable_of_reached (reached : Reached meaning registry)
    (means : Means meaning disk) :
    ∀ record ∈ registry.records.rows, Reliable disk record := by
  intro record member
  exact (isMeant_of_reached reached record member).reliable means

end Runs

/-! ## Serving -/

section Serving

open PmtilesRoutes

variable {Decoded : Type}

/-- The file is the one which the record is about. -/
structure StillMatches (record : ChartRecord Decoded) (info : FileInfo) :
    Prop where
  regular : info.isFile = true
  device : record.device = some info.dev
  inode : record.inode = some info.ino
  size : record.bytes = some info.size
  mtime : record.mtimeNs = some info.mtimeNs

/-- What the route does with the files for a request. -/
structure ServesPublished (registry : ChartRegistry Decoded)
    (openFile : List Char → Option FileInfo) (outcome : StreamOutcome)
    (request : ServeRequest) : Prop where
  /-- Nothing is opened but the path of the record with the identifier of the
  requested name; without such a record nothing is opened at all. -/
  opens : ∀ other : List Char → Option FileInfo,
    (∀ record, registry.record (nameToId request.file) = some record →
      openFile record.filePath = other record.filePath) →
        serve registry openFile outcome request =
          serve registry other outcome request
  /-- Anything but a missing file is said about a file which still matches. -/
  answers : serve registry openFile outcome request = notFound ∨
    ∃ record ∈ registry.records.rows, ∃ info,
      record.identifier = nameToId request.file ∧
      openFile record.filePath = some info ∧ StillMatches record info ∧
      serve registry openFile outcome request =
        answerFile outcome request info

theorem servesPublished (registry : ChartRegistry Decoded)
    (openFile : List Char → Option FileInfo) (outcome : StreamOutcome)
    (request : ServeRequest) :
    ServesPublished registry openFile outcome request := by
  constructor
  · intro other agree
    unfold serve
    cases found : registry.record (nameToId request.file) with
    | none => rfl
    | some record =>
        dsimp only
        rw [agree record found]
  · cases found : registry.record (nameToId request.file) with
    | none =>
        apply Or.inl
        unfold serve
        rw [found]
    | some record =>
        obtain ⟨member, id⟩ := KeyedTable.lookup_eq_some.mp found
        cases checked : (openFile record.filePath).bind
            (checkedFile record) with
        | none =>
            apply Or.inl
            unfold serve
            rw [found]
            dsimp only
            rw [checked]
        | some info =>
            apply Or.inr
            obtain ⟨_, fromDisk, passed⟩ :=
              Option.bind_eq_some_iff.mp checked
            obtain ⟨conditions, same⟩ :=
              Option.ite_none_right_eq_some.mp passed
            cases same
            refine ⟨record, member, info, id, fromDisk, ?_, ?_⟩
            · exact ⟨conditions.1, conditions.2.1, conditions.2.2.1,
                conditions.2.2.2.1, conditions.2.2.2.2.1⟩
            · unfold serve
              rw [found]
              dsimp only
              rw [checked]

end Serving

/-! ## Discovery and serving -/

section Discovery

variable {Decoded : Type} {disk : Disk Decoded} {namer : ChartNamer Decoded}
  {listing other : Listing} {registry previous : ChartRegistry Decoded}

/-- The order in which a directory is read does not matter. -/
theorem isSafeEntry_of_perm {entries others : List Entry}
    (permuted : entries.Perm others) {fileName filePath : List Char}
    (safe : IsSafeEntry disk entries fileName filePath) :
    IsSafeEntry disk others fileName filePath := by
  obtain ⟨entry, member, checks⟩ := safe
  exact ⟨entry, permuted.mem_iff.mp member, checks⟩

theorem publishable_of_perm {entries others : List Entry}
    (permuted : entries.Perm others) {fileName filePath : List Char}
    {identity : FileIdentity} {decoded : Decoded}
    (publishable :
      Publishable disk entries fileName filePath identity decoded) :
    Publishable disk others fileName filePath identity decoded := by
  constructor
  · exact isSafeEntry_of_perm permuted publishable.safe
  · intro candidate path safe
    exact publishable.alone candidate path
      (isSafeEntry_of_perm permuted.symm safe)
  · exact publishable.regular
  · exact publishable.decodes

theorem mem_published_of_perm
    (permuted : listing.entries.Perm other.entries)
    (reliable : ∀ record ∈ registry.records.rows, Reliable disk record)
    (before : ∀ record ∈ previous.records.rows, Reliable disk record)
    {record : ChartRecord Decoded}
    (member : record ∈ (performRescanCharts disk namer true (some listing)
      registry).records.rows) :
    record ∈ (performRescanCharts disk namer true (some other)
      previous).records.rows := by
  obtain ⟨safe, scanned⟩ := (mem_published reliable).mp member
  obtain ⟨fileName, filePath, identity, decoded, publishable, built⟩ :=
    (mem_scanRecords reliable listing.distinct).mp scanned
  apply (mem_published before).mpr
  refine ⟨safe, (mem_scanRecords before other.distinct).mpr ?_⟩
  exact ⟨fileName, filePath, identity, decoded,
    publishable_of_perm permuted publishable, built⟩

/-- No record has the identifier of two safe entries. -/
theorem identifier_ne_of_collision
    (reliable : ∀ record ∈ registry.records.rows, Reliable disk record)
    {left right leftPath rightPath : List Char}
    (leftSafe : IsSafeEntry disk listing.entries left leftPath)
    (rightSafe : IsSafeEntry disk listing.entries right rightPath)
    (different : left ≠ right) (same : nameToId left = nameToId right)
    {record : ChartRecord Decoded}
    (member : record ∈ scanRecords disk namer registry listing.entries) :
    record.identifier ≠ nameToId left ∧
      record.identifier = nameToId record.fileName := by
  obtain ⟨fileName, filePath, identity, decoded, publishable, rfl⟩ :=
    (mem_scanRecords reliable listing.distinct).mp member
  refine ⟨?_, rfl⟩
  intro identical
  have first : left = fileName :=
    publishable.alone left leftPath leftSafe identical.symm
  have second : right = fileName :=
    publishable.alone right rightPath rightSafe (same.symm.trans identical.symm)
  exact different (first.trans second.symm)

/-- What a scan publishes has one record for each identifier, leaves out every
file which collides with another one that resolves inside of the directory,
and depends neither on the order of the entries nor on the reliable records
before it, which are what any scans leave behind; the route opens only the file
of the record that is asked for, and serves it only while it matches. -/
theorem discovery_unambiguous
    (permuted : listing.entries.Perm other.entries)
    (reliable : ∀ record ∈ registry.records.rows, Reliable disk record)
    (before : ∀ record ∈ previous.records.rows, Reliable disk record) :
    let published := performRescanCharts disk namer true (some listing)
      registry
    (published.records.rows.map ChartRecord.identifier).Nodup ∧
    (∀ left right leftPath rightPath,
      IsSafeEntry disk listing.entries left leftPath →
      IsSafeEntry disk listing.entries right rightPath →
      left ≠ right → nameToId left = nameToId right →
      ∀ record ∈ published.records.rows,
        record.identifier ≠ nameToId left ∧ record.fileName ≠ left ∧
          record.fileName ≠ right) ∧
    (∀ record, record ∈ published.records.rows ↔
      record ∈ (performRescanCharts disk namer true (some other)
        previous).records.rows) ∧
    (∀ meaning scanned, Means meaning disk → Reached meaning scanned →
      ∀ record ∈ scanned.records.rows, Reliable disk record) ∧
    ∀ openFile outcome request,
      ServesPublished published openFile outcome request := by
  intro published
  refine ⟨published.records.nodup, ?_, ?_, ?_, ?_⟩
  · intro left right leftPath rightPath leftSafe rightSafe different same
      record member
    obtain ⟨_, scanned⟩ := (mem_published reliable).mp member
    obtain ⟨distinct, named⟩ := identifier_ne_of_collision reliable leftSafe
      rightSafe different same scanned
    refine ⟨distinct, ?_, ?_⟩
    · intro identical
      rw [identical] at named
      exact distinct named
    · intro identical
      rw [identical, ← same] at named
      exact distinct named
  · intro record
    exact ⟨mem_published_of_perm permuted reliable before,
      mem_published_of_perm permuted.symm before reliable⟩
  · intro meaning scanned means reached
    exact reliable_of_reached reached means
  · intro openFile outcome request
    exact servesPublished published openFile outcome request

end Discovery

section Samples

open PmtilesRoutes (smallFile smallRecord)

def plainEntry : Entry where
  name := "x.pmtiles.PMTILES".toList
  kind := .file

def linkEntry : Entry where
  name := "x-pmtiles.PMTILES".toList
  kind := .symbolicLink

/-- The link is broken, every other name is a file of the directory. -/
def linkDisk : Disk Unit where
  rootIsSafe := true
  directory := some "/charts".toList
  realpath := fun name =>
    if name = linkEntry.name then none else some ("/charts/".toList ++ name)
  stat := fun _ => some smallFile
  decode := fun _ => .ok ()

def plainNamer : ChartNamer Unit :=
  fun fileName _ => ⟨fileName, [], 250000⟩

def plainFirst : Listing where
  entries := [plainEntry, linkEntry]
  distinct := by decide

def linkFirst : Listing where
  entries := [linkEntry, plainEntry]
  distinct := by decide

theorem discovery_unambiguous_of_two :
    let published := performRescanCharts linkDisk plainNamer true
      (some plainFirst) ⟨.empty, .empty⟩
    (published.records.rows.map ChartRecord.identifier).Nodup ∧
    (∀ left right leftPath rightPath,
      IsSafeEntry linkDisk plainFirst.entries left leftPath →
      IsSafeEntry linkDisk plainFirst.entries right rightPath →
      left ≠ right → nameToId left = nameToId right →
      ∀ record ∈ published.records.rows,
        record.identifier ≠ nameToId left ∧ record.fileName ≠ left ∧
          record.fileName ≠ right) ∧
    (∀ record, record ∈ published.records.rows ↔
      record ∈ (performRescanCharts linkDisk plainNamer true (some linkFirst)
        (.replace [smallRecord] [])).records.rows) ∧
    (∀ meaning scanned, Means meaning linkDisk → Reached meaning scanned →
      ∀ record ∈ scanned.records.rows, Reliable linkDisk record) ∧
    ∀ openFile outcome request,
      ServesPublished published openFile outcome request := by
  have permuted : plainFirst.entries.Perm linkFirst.entries :=
    List.Perm.swap linkEntry plainEntry []
  apply discovery_unambiguous permuted
  · intro record member
    cases member
  · intro record _ filePath identity _ _
    rfl

/-- The names of the two entries collide, but the scan counts the identifiers
of the entries which resolve inside of the directory only. -/
theorem published_beside_broken_link :
    (isPmtilesName plainEntry.name = true ∧
      isPmtilesName linkEntry.name = true ∧
      nameToId plainEntry.name = nameToId linkEntry.name) ∧
    (performRescanCharts linkDisk plainNamer true (some plainFirst)
      ⟨.empty, .empty⟩).records.rows.map ChartRecord.fileName =
        [plainEntry.name] := by
  decide +kernel

end Samples

end ChartLocker.Plugin.Charts
