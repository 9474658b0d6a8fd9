import ChartLocker.Library.Placeholder
import ChartLocker.Plugin.ChartRegistry
import ChartLocker.Plugin.EntityTags
import ChartLocker.Plugin.RangeHeaders

/-!
# The archive route

`serve` opens the file of a published record, compares its identity with the
one which the scan has captured, and answers a conditional or a range request
for it.
-/

namespace ChartLocker.Plugin.PmtilesRoutes

open Library Doubles Placeholder
open Charts (ChartRecord ChartRegistry FileInfo nameToId)

/-! ## Requests and answers -/

inductive HeaderValue where
  | missing
  | single (value : List Char)
  | several (values : List (List Char))
deriving DecidableEq, Repr

/-- `header`. -/
def HeaderValue.first : HeaderValue → Option (List Char)
  | .missing => none
  | .single value => some value
  | .several values => values.head?

structure ServeRequest where
  file : List Char
  range : HeaderValue
  ifNoneMatch : HeaderValue
  ifRange : HeaderValue
  method : Option (List Char)
deriving DecidableEq, Repr

def ServeRequest.isHead (request : ServeRequest) : Bool :=
  request.method.map (·.map Char.toUpper) == some "HEAD".toList

inductive HeaderName where
  | acceptRanges
  | etag
  | contentType
  | cacheControl
  | contentRange
  | contentLength
deriving DecidableEq, Repr

/-- The header fields of an answer.  All of them belong to the
representation. -/
abbrev Headers := HeaderName → Option (List Char)

/-- `setHeader`. -/
def Headers.set (headers : Headers) (name : HeaderName) (value : List Char) :
    Headers :=
  fun other => if other = name then some value else headers other

/-- Which bytes of the open file a stream reads. -/
inductive StreamRange where
  | whole
  | bounded (start final : Double)
deriving DecidableEq, Repr

inductive Body where
  | empty
  | message (text : String)
  | streamed (file : FileInfo) (range : StreamRange)
deriving DecidableEq, Repr

structure ServeAnswer where
  status : ℕ
  headers : Headers
  body : Body

/-- What becomes of the stream: it cannot be created, the observer of streams
throws, it breaks before the headers are sent, or they are sent with what it
reads. -/
inductive StreamOutcome where
  | notCreated
  | notObserved
  | breaksFirst
  | flows
deriving DecidableEq, Repr

/-! ## The open file -/

/-- A number below `10 ^ 21` in decimal digits. -/
def numberText (number : Double) : List Char :=
  match number with
  | .finite value =>
      (if value < 0 then ['-'] else []) ++ digits value.natAbs
  | .infinity negative =>
      (if negative then ['-'] else []) ++ "Infinity".toList
  | .nan => "NaN".toList

def bigintText (value : Int) : List Char :=
  (if value < 0 then ['-'] else []) ++ digits value.natAbs

/-- The file as `fstat` tells of it, unless it is no regular file, another
one than the record is about, or too large. -/
def checkedFile {Decoded : Type} (record : ChartRecord Decoded)
    (info : FileInfo) : Option FileInfo :=
  if info.isFile ∧ record.device = some info.dev ∧
      record.inode = some info.ino ∧ record.bytes = some info.size ∧
      record.mtimeNs = some info.mtimeNs ∧
      Double.isSafeInteger (Double.ofInt info.size) then
    some info
  else
    none

/-- What stands between the quotes of the tag. -/
def tagContent (file : FileInfo) : List Char :=
  digits file.dev ++ '-' :: (digits file.ino ++
    '-' :: (digits file.size ++ '-' :: bigintText file.mtimeNs))

def etagText (file : FileInfo) : List Char :=
  '"' :: (tagContent file ++ ['"'])

/-! ## Answers -/

def notFound : ServeAnswer where
  status := 404
  headers := fun _ => none
  body := .message "Not found"

/-- `clearRepresentationHeaders`, with the answer behind it. -/
def internalError : ServeAnswer where
  status := 500
  headers := fun _ => none
  body := .empty

def representationHeaders (file : FileInfo) : Headers
  | .acceptRanges => some "bytes".toList
  | .etag => some (etagText file)
  | .contentType => some "application/octet-stream".toList
  | .cacheControl => some "private, max-age=0, must-revalidate".toList
  | .contentRange => none
  | .contentLength => none

/-- The end of an answer with content: HEAD leaves the content out. -/
def sendContent (outcome : StreamOutcome) (isHead : Bool) (status : ℕ)
    (headers : Headers) (file : FileInfo) (range : StreamRange) :
    ServeAnswer :=
  if isHead then
    { status := status
      headers := headers
      body := .empty }
  else
    match outcome with
    | .flows =>
        { status := status
          headers := headers
          body := .streamed file range }
    | .notCreated | .notObserved | .breaksFirst => internalError

/-- If-Range guards the range: a validator which does not match falls back to
the full answer. -/
def honorsRange (request : ServeRequest) (etag : List Char) : Bool :=
  match request.ifRange.first with
  | none => true
  | some ifRange => decide (ifRange = []) || decide (ifRange = etag)

/-- The end of `serve`, for the parsed range if it is honoured. -/
def answerRange (outcome : StreamOutcome) (isHead : Bool) (file : FileInfo)
    (range : Option ParsedRange) : ServeAnswer :=
  let size := Double.ofInt file.size
  let headers := representationHeaders file
  match range with
  | some .unsatisfiable =>
      { status := 416
        headers := headers.set .contentRange
          ("bytes */".toList ++ numberText size)
        body := .empty }
  | some (.satisfiable start final) =>
      let length := Double.add (Double.sub final start) (.finite 1)
      let ranged := (headers.set .contentRange
        ("bytes ".toList ++ numberText start ++ '-' :: (numberText final ++
          '/' :: numberText size))).set .contentLength (numberText length)
      sendContent outcome isHead 206 ranged file (.bounded start final)
  | none =>
      sendContent outcome isHead 200
        (headers.set .contentLength (numberText size)) file .whole

/-- `serve` behind the checks of the file. -/
def answerFile (outcome : StreamOutcome) (request : ServeRequest)
    (file : FileInfo) : ServeAnswer :=
  let etag := etagText file
  if matchesIfNoneMatch request.ifNoneMatch.first etag then
    { status := 304
      headers := representationHeaders file
      body := .empty }
  else
    answerRange outcome request.isHead file
      (if honorsRange request etag then
        parseRange request.range.first (Double.ofInt file.size)
      else
        none)

/-- `serve`.  Opening a path which is missing or a symbolic link has no
value. -/
def serve {Decoded : Type} (registry : ChartRegistry Decoded)
    (openFile : List Char → Option FileInfo) (outcome : StreamOutcome)
    (request : ServeRequest) : ServeAnswer :=
  match registry.record (nameToId request.file) with
  | none => notFound
  | some record =>
      match (openFile record.filePath).bind (checkedFile record) with
      | none => notFound
      | some file => answerFile outcome request file

/-! ## The current tag -/

theorem mem_bigintText {value : Int} {char : Char}
    (member : char ∈ bigintText value) : char = '-' ∨ char.isDigit = true := by
  rcases List.mem_append.mp member with sign | digit
  · split at sign
    · exact .inl (List.mem_singleton.mp sign)
    · exact absurd sign List.not_mem_nil
  · exact .inr (isDigit_of_mem_digits digit)

theorem mem_tagContent {file : FileInfo} {char : Char}
    (member : char ∈ tagContent file) : char = '-' ∨ char.isDigit = true := by
  simp only [tagContent, List.mem_append, List.mem_cons] at member
  rcases member with dev | rfl | ino | rfl | size | rfl | time
  · exact .inr (isDigit_of_mem_digits dev)
  · exact .inl rfl
  · exact .inr (isDigit_of_mem_digits ino)
  · exact .inl rfl
  · exact .inr (isDigit_of_mem_digits size)
  · exact .inl rfl
  · exact mem_bigintText time

/-- Digits and hyphens are characters of a tag. -/
theorem bounds_of_mem_tagContent {file : FileInfo} {char : Char}
    (member : char ∈ tagContent file) :
    0x23 ≤ char.toNat ∧ char.toNat ≤ 0x7e := by
  rcases mem_tagContent member with rfl | digit
  · decide
  · unfold Char.isDigit at digit
    simp only [ge_iff_le, Bool.and_eq_true, decide_eq_true_eq] at digit
    have low : 0x30 ≤ char.toNat := digit.1
    have high : char.toNat ≤ 0x39 := digit.2
    omega

/-- The strong entity tag of a file. -/
def currentTag (file : FileInfo) : EntityTag where
  weak := false
  content := tagContent file
  legal := by
    apply List.all_eq_true.mpr
    intro char member
    have bounds := bounds_of_mem_tagContent member
    unfold isEtagc
    rw [decide_eq_true bounds, Bool.or_true, Bool.true_or]

theorem etagText_eq (file : FileInfo) :
    etagText file = (currentTag file).text :=
  rfl

theorem isLatin_currentTag (file : FileInfo) : IsLatin (currentTag file) := by
  intro char member
  have bounds := bounds_of_mem_tagContent member
  omega

/-! ## Verdicts -/

/-- What the headers of a request ask of the file. -/
inductive Verdict where
  | notModified
  | unsatisfiable
  | partialContent (start final : ℕ)
  | full
deriving DecidableEq, Repr

section Verdicts

variable (request : ServeRequest) (file : FileInfo)

/-- If-None-Match is the wildcard, or a tag of its list is weakly equal to
the current one. -/
def NoneMatchFails : Prop :=
  ∃ raw, request.ifNoneMatch.first = some raw ∧
    (IsWildcard raw ∨ ∃ first others,
      raw = (TagField.tags first others).text ∧
        (TagField.tags first others).Lists (currentTag file))

/-- If-Range is missing, empty or the current tag. -/
def RangeApplies : Prop :=
  ∀ ifRange, request.ifRange.first = some ifRange →
    ifRange = [] ∨ ifRange = (currentTag file).text

def RequestsRange (range : ByteRange) : Prop :=
  ∃ raw, request.range.first = some raw ∧ IsLiteralRange raw range

/-- The precedence of the preconditions. -/
inductive Decides : Verdict → Prop where
  | notModified (unchanged : NoneMatchFails request file) :
      Decides .notModified
  | unsatisfiable (range : ByteRange)
      (changed : ¬NoneMatchFails request file)
      (applies : RangeApplies request file)
      (requested : RequestsRange request range)
      (nothing : ∀ position, ¬range.Selects file.size position) :
      Decides .unsatisfiable
  | partialContent (range : ByteRange) (start final : ℕ)
      (changed : ¬NoneMatchFails request file)
      (applies : RangeApplies request file)
      (requested : RequestsRange request range)
      (ordered : start ≤ final) (inside : final < file.size)
      (exactly : ∀ position, range.Selects file.size position ↔
        start ≤ position ∧ position ≤ final) :
      Decides (.partialContent start final)
  | full (changed : ¬NoneMatchFails request file)
      (whole : RangeApplies request file →
        ∀ range, ¬RequestsRange request range) :
      Decides .full

end Verdicts

namespace Verdict

def status : Verdict → ℕ
  | .notModified => 304
  | .unsatisfiable => 416
  | .partialContent _ _ => 206
  | .full => 200

def contentRange (size : ℕ) : Verdict → Option (List Char)
  | .unsatisfiable => some ("bytes */".toList ++ digits size)
  | .partialContent start final =>
      some ("bytes ".toList ++ digits start ++ '-' :: (digits final ++
        '/' :: digits size))
  | _ => none

/-- The length of the content, where there is content. -/
def contentLength (size : ℕ) : Verdict → Option ℕ
  | .partialContent start final => some (final + 1 - start)
  | .full => some size
  | _ => none

def streamRange : Verdict → Option StreamRange
  | .partialContent start final =>
      some (.bounded (.finite start) (.finite final))
  | .full => some .whole
  | _ => none

def headers (file : FileInfo) (verdict : Verdict) : Headers
  | .contentRange => verdict.contentRange file.size
  | .contentLength => (verdict.contentLength file.size).map digits
  | name => representationHeaders file name

/-- The answer of a verdict.  Content which cannot be streamed is an internal
error without any header field of the representation. -/
def answer (outcome : StreamOutcome) (isHead : Bool) (file : FileInfo)
    (verdict : Verdict) : ServeAnswer :=
  let head : ServeAnswer :=
    { status := verdict.status
      headers := verdict.headers file
      body := .empty }
  match verdict.streamRange with
  | none => head
  | some range =>
      if isHead then head
      else if outcome = .flows then { head with body := .streamed file range }
      else internalError

end Verdict

section Answers

variable {outcome : StreamOutcome} {request : ServeRequest} {file : FileInfo}

theorem matches_iff_noneMatchFails :
    matchesIfNoneMatch request.ifNoneMatch.first (etagText file) = true ↔
      NoneMatchFails request file := by
  unfold NoneMatchFails
  cases given : request.ifNoneMatch.first with
  | none =>
      constructor
      · intro matching
        cases matching
      · intro ⟨raw, impossible, _⟩
        cases impossible
  | some raw =>
      rw [etagText_eq, matchesIfNoneMatch_iff (isLatin_currentTag file)]
      constructor
      · intro fails
        exact ⟨raw, rfl, fails⟩
      · intro ⟨other, same, fails⟩
        cases same
        exact fails

theorem honorsRange_iff :
    honorsRange request (etagText file) = true ↔ RangeApplies request file := by
  unfold honorsRange RangeApplies
  rw [← etagText_eq]
  cases given : request.ifRange.first with
  | none => simp
  | some ifRange => simp

theorem numberText_nat (value : ℕ) :
    numberText (.finite value) = digits value := by
  have natural : ¬(value : Int) < 0 := by omega
  change (if (value : Int) < 0 then ['-'] else []) ++ _ = _
  rw [if_neg natural, List.nil_append, Int.natAbs_natCast]

theorem sendContent_eq {isHead : Bool} (verdict : Verdict)
    {range : StreamRange} {headers : Headers}
    (streams : verdict.streamRange = some range)
    (same : headers = verdict.headers file) :
    sendContent outcome isHead verdict.status headers file range =
      verdict.answer outcome isHead file := by
  unfold sendContent Verdict.answer
  rw [streams, same]
  dsimp only
  split
  · rfl
  · cases outcome <;> rfl

section Ranges

variable {isHead : Bool} (safe : file.size < unsafeFrom)
include safe

theorem size_text : numberText (Double.ofInt file.size) = digits file.size := by
  rw [Double.ofInt_of_safe (by omega), numberText_nat]

theorem answerRange_none :
    answerRange outcome isHead file none =
      Verdict.full.answer outcome isHead file := by
  unfold answerRange
  dsimp only
  rw [size_text safe]
  apply sendContent_eq .full rfl
  funext name
  cases name <;> rfl

theorem answerRange_unsatisfiable :
    answerRange outcome isHead file (some .unsatisfiable) =
      Verdict.unsatisfiable.answer outcome isHead file := by
  have headers : (representationHeaders file).set .contentRange
      ("bytes */".toList ++ digits file.size) =
        Verdict.unsatisfiable.headers file := by
    funext name
    cases name <;> rfl
  unfold answerRange
  dsimp only
  rw [size_text safe, headers]
  rfl

theorem answerRange_satisfiable {start final : ℕ} (ordered : start ≤ final)
    (inside : final < file.size) :
    answerRange outcome isHead file
        (some (.satisfiable (.finite start) (.finite final))) =
      (Verdict.partialContent start final).answer outcome isHead file := by
  have length : Double.add (Double.sub (.finite final) (.finite start))
      (.finite 1) = .finite ((final + 1 - start : ℕ) : Int) := by
    rw [Double.sub, Double.ofInt_of_safe (by omega), Double.add,
      Double.ofInt_of_safe (by omega)]
    congr 1
    omega
  unfold answerRange
  dsimp only
  rw [size_text safe, length, numberText_nat, numberText_nat, numberText_nat]
  apply sendContent_eq (.partialContent start final) rfl
  funext name
  cases name <;> rfl

/-- The code comes to a verdict which the headers justify, and gives its
answer. -/
theorem answerFile_decides :
    ∃ verdict, Decides request file verdict ∧
      answerFile outcome request file =
        verdict.answer outcome request.isHead file := by
  have size : Double.ofInt file.size = .finite file.size :=
    Double.ofInt_of_safe (by omega)
  by_cases unchanged : NoneMatchFails request file
  · refine ⟨.notModified, .notModified unchanged, ?_⟩
    unfold answerFile
    have headers : representationHeaders file =
        Verdict.notModified.headers file := by
      funext name
      cases name <;> rfl
    dsimp only
    rw [if_pos (matches_iff_noneMatchFails.mpr unchanged), headers]
    rfl
  · have changed : ¬matchesIfNoneMatch request.ifNoneMatch.first
        (etagText file) = true :=
      fun matching => unchanged (matches_iff_noneMatchFails.mp matching)
    unfold answerFile
    dsimp only
    rw [if_neg changed, size]
    by_cases applies : RangeApplies request file
    · rw [if_pos (honorsRange_iff.mpr applies)]
      by_cases asked : ∃ range, RequestsRange request range
      · obtain ⟨range, requested⟩ := asked
        obtain ⟨raw, given, literal⟩ := id requested
        rw [given, parseRange_of_literal safe literal]
        cases clipped : range.clip file.size with
        | none =>
            exact ⟨.unsatisfiable, .unsatisfiable range unchanged applies
              requested (ByteRange.clip_eq_none_iff.mp clipped),
              answerRange_unsatisfiable safe⟩
        | some bounds =>
            obtain ⟨ordered, inside⟩ := ByteRange.bounds_of_clip clipped
            exact ⟨.partialContent bounds.1 bounds.2,
              .partialContent range bounds.1 bounds.2 unchanged applies
                requested ordered inside
                (ByteRange.selects_iff_of_clip clipped),
              answerRange_satisfiable safe ordered inside⟩
      · have never : ∀ range, ¬RequestsRange request range :=
          fun range requested => asked ⟨range, requested⟩
        have nothing : parseRange request.range.first (.finite file.size) =
            none := by
          apply (parseRange_eq_none_iff safe).mpr
          intro raw given range literal
          exact never range ⟨raw, given, literal⟩
        rw [nothing]
        exact ⟨.full, .full unchanged fun _ => never, answerRange_none safe⟩
    · rw [if_neg fun honored => applies (honorsRange_iff.mp honored)]
      exact ⟨.full, .full unchanged fun does => absurd does applies,
        answerRange_none safe⟩

end Ranges

end Answers

/-! ## The whole route -/

/-- What `parseRange` makes of a header, for a file of this size. -/
structure RangeExact (raw : Option (List Char)) (size : ℕ) : Prop where
  null : parseRange raw (.finite size) = none ↔
    ∀ value ∈ raw, ∀ range, ¬IsLiteralRange value range
  unsatisfiable : ∀ value ∈ raw, ∀ range, IsLiteralRange value range →
    (parseRange raw (.finite size) = some .unsatisfiable ↔
      ∀ position, ¬range.Selects size position)
  satisfiable : ∀ value ∈ raw, ∀ range, IsLiteralRange value range →
    ∀ start final,
      parseRange raw (.finite size) = some (.satisfiable start final) →
        ∃ first last : ℕ, start = .finite first ∧ final = .finite last ∧
          first ≤ last ∧ last < size ∧
          ∀ position, range.Selects size position ↔
            first ≤ position ∧ position ≤ last

theorem rangeExact {size : ℕ} (safe : size < unsafeFrom)
    (raw : Option (List Char)) : RangeExact raw size := by
  constructor
  · exact parseRange_eq_none_iff safe
  · intro value given range literal
    rw [given, parseRange_of_literal safe literal, ← ByteRange.clip_eq_none_iff]
    cases range.clip size with
    | none => exact ⟨fun _ => rfl, fun _ => rfl⟩
    | some bounds =>
        constructor
        · intro same
          cases same
        · intro same
          cases same
  · intro value given range literal start final parsed
    rw [given, parseRange_of_literal safe literal] at parsed
    cases clipped : range.clip size with
    | none =>
        rw [clipped] at parsed
        cases parsed
    | some bounds =>
        obtain ⟨ordered, inside⟩ := ByteRange.bounds_of_clip clipped
        rw [clipped] at parsed
        cases parsed
        exact ⟨bounds.1, bounds.2, rfl, rfl, ordered, inside,
          ByteRange.selects_iff_of_clip clipped⟩

/-- What the code makes of If-None-Match, for this current tag. -/
structure TagsExact (raw : List Char) (current : EntityTag) : Prop where
  accepted : (entityTagList raw).isSome = true ↔
    ∃ first others, raw = (TagField.tags first others).text
  comparison : matchesIfNoneMatch (some raw) current.text = true ↔
    IsWildcard raw ∨ ∃ first others,
      raw = (TagField.tags first others).text ∧
        (TagField.tags first others).Lists current

theorem tagsExact (raw : List Char) {current : EntityTag}
    (latin : IsLatin current) : TagsExact raw current := by
  constructor
  · rw [Option.isSome_iff_exists]
    constructor
    · intro ⟨tags, listed⟩
      obtain ⟨first, others, text, _⟩ := entityTagList_eq_some.mp listed
      exact ⟨first, others, text⟩
    · intro ⟨first, others, text⟩
      exact ⟨_, entityTagList_eq_some.mpr ⟨first, others, text, rfl⟩⟩
  · exact matchesIfNoneMatch_iff latin

section Route

variable {Decoded : Type} {registry : ChartRegistry Decoded}
  {openFile : List Char → Option FileInfo} {outcome : StreamOutcome}
  {request : ServeRequest} {record : ChartRecord Decoded} {file : FileInfo}

theorem safe_of_checkedFile {info : FileInfo}
    (checked : checkedFile record info = some file) :
    file.size < unsafeFrom := by
  obtain ⟨conditions, same⟩ := Option.ite_none_right_eq_some.mp checked
  cases same
  have safe := conditions.2.2.2.2.2
  rw [Double.isSafeInteger_ofInt (by omega), decide_eq_true_eq] at safe
  omega

/-- The parsers are exact about literal ranges and lists of tags, and the
answer for an unchanged file is the one of a verdict which the headers
justify. -/
theorem requests_answered
    (found : registry.record (nameToId request.file) = some record)
    (unchanged : (openFile record.filePath).bind (checkedFile record) =
      some file) :
    (∀ raw size, size < unsafeFrom → RangeExact raw size) ∧
      (∀ raw current, IsLatin current → TagsExact raw current) ∧
      ∃ verdict, Decides request file verdict ∧
        serve registry openFile outcome request =
          verdict.answer outcome request.isHead file := by
  refine ⟨fun raw _ safe => rangeExact safe raw,
    fun raw _ latin => tagsExact raw latin, ?_⟩
  obtain ⟨info, _, checked⟩ := Option.bind_eq_some_iff.mp unchanged
  have answered : serve registry openFile outcome request =
      answerFile outcome request file := by
    unfold serve
    rw [found]
    dsimp only
    rw [unchanged]
  rw [answered]
  exact answerFile_decides (safe_of_checkedFile checked)

end Route

def smallFile : FileInfo where
  isFile := true
  dev := 1
  ino := 2
  size := 8
  mtimeMs := 0
  mtimeNs := 5

def smallRecord : ChartRecord Unit where
  identifier := "a-pmtiles".toList
  fileName := "a.pmtiles".toList
  filePath := "/charts/a.pmtiles".toList
  naming := ⟨"a".toList, [], 250000⟩
  decoded := ()
  mtimeMs := some 0
  mtimeNs := some 5
  device := some 1
  inode := some 2
  bytes := some 8

def smallRequest : ServeRequest where
  file := "a.pmtiles".toList
  range := .single "bytes=-3".toList
  ifNoneMatch := .single "W/\"1-2-8-4\"".toList
  ifRange := .missing
  method := none

theorem requests_answered_of_suffix :
    (∀ raw size, size < unsafeFrom → RangeExact raw size) ∧
      (∀ raw current, IsLatin current → TagsExact raw current) ∧
      ∃ verdict, Decides smallRequest smallFile verdict ∧
        serve (ChartRegistry.replace [smallRecord] [])
            (fun _ => some smallFile) .flows smallRequest =
          verdict.answer .flows smallRequest.isHead smallFile := by
  have found : (ChartRegistry.replace [smallRecord] []).record
      (nameToId smallRequest.file) = some smallRecord := by decide +kernel
  have unchanged : (some smallFile).bind (checkedFile smallRecord) =
      some smallFile := by decide +kernel
  exact requests_answered found unchanged

/-! ## Headers outside of the literal forms -/

def capitalUnit : List Char := "Bytes=0-1".toList

def spacedWildcard : List Char := [Char.ofNat 0xa0, '*']

/-- The name of a range unit is not case-sensitive, but the code wants it in
lower case; and no white space but spaces and tabs may stand beside a
wildcard, but the code trims a no-break space. -/
theorem capital_unit_and_spaced_wildcard :
    (IsByteRanges capitalUnit ∧
      parseRange (some capitalUnit) (.finite 8) = none) ∧
    (∀ field : TagField, field.text ≠ spacedWildcard) ∧
      matchesIfNoneMatch (some spacedWildcard) (currentTag smallFile).text =
        true := by
  refine ⟨⟨⟨"Bytes".toList, .between ⟨['0'], by decide, by decide⟩
    ⟨['1'], by decide, by decide⟩, by decide, by decide⟩, by decide +kernel⟩,
    ?_, by decide +kernel⟩
  intro field text
  cases field with
  | any before after blankBefore blankAfter =>
      have listed : Char.ofNat 0xa0 ∈ before ++ '*' :: after := by
        rw [show before ++ '*' :: after = spacedWildcard from text]
        decide
      have blank : ∀ {part}, isBlank part = true → Char.ofNat 0xa0 ∉ part := by
        intro part blank member
        exact absurd (char_of_isBlank blank member) (by decide)
      rcases List.mem_append.mp listed with inside | later
      · exact blank blankBefore inside
      · rcases List.mem_cons.mp later with star | inside
        · exact absurd star (by decide)
        · exact blank blankAfter inside
  | tags first others =>
      have listed := entityTagList_text first others
      have unread : readTag (dropBlank spacedWildcard) = none := by decide
      rw [text, entityTagList_eq, unread] at listed
      cases listed

end ChartLocker.Plugin.PmtilesRoutes
