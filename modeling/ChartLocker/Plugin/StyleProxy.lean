import ChartLocker.Plugin.ContainerTargets
import ChartLocker.Style.Rewriting

/-!
# Style requests through the proxy

The plugin serves a style document at its mount path: the container has turned
the glyphs and the tiles of the document to the style routes, the plugin turns
the sprite.  A client asks for what the served document names, the plugin
forwards the path behind its mount, and the container reads the source and the
asset from the segments of the path.

What the container then fetches is what the upstream document itself names:
turning the document to the routes changes who fetches, and not what.
-/

namespace ChartLocker.Plugin.StyleProxy

open Library Text Url Catalog Config Style Warm ContainerTargets

/-! ## The way of a request -/

/-- The path prefix under which the server mounts the plugin. -/
structure Mount where
  text : String
  slash : text.toList.head? = some '/'
  plain : '{' ∉ text.toList

/-- The origin of the page, as `publicOrigin` gives it. -/
structure Origin where
  text : String
  absolute : text.toList.head? = some 'h'

/-- The URL which a client requests for a reference in a document. -/
def absoluteUrl (page : Origin) (reference : List Char) : List Char :=
  if reference.head? = some '/' then
    page.text.toList ++ reference
  else
    reference

/-- The request URL which the routes of the plugin see. -/
def mountedUrl (page : Origin) (mount : Mount) (reference : List Char) :
    Option (List Char) :=
  (absoluteUrl page reference).dropPrefix?
    (page.text.toList ++ mount.text.toList)

section Routes

/- The percent-decoding of path parameters in the container's router. -/
variable (decode : List Char → Option (List Char))

/-- A parameter of a route, which no empty segment matches. -/
def param (segment : List Char) : Option String :=
  if segment = [] then none else (decode segment).map String.ofList

/-- The source which the document route reads. -/
def documentSource (path : List Char) : Option String :=
  match path.splitOn '/' with
  | [[], style, source] =>
      if style = "style".toList then param decode source else none
  | _ => none

/-- The source and the asset which the routes below it read. -/
def styleRoute (path : List Char) : Option (String × AssetPath) :=
  match path.splitOn '/' with
  | [[], style, source, sprite] =>
      if style = "style".toList then
        (param decode source).bind fun source =>
          (spriteVariants.find? fun entry =>
            decide (sprite = "sprite".toList ++ entry.2.1.toList)).map
              fun entry => (source, .sprite entry.1)
      else
        none
  | [[], style, source, glyphs, fontstack, range] =>
      if style = "style".toList ∧ glyphs = "glyphs".toList then
        (param decode source).bind fun source =>
          (param decode fontstack).bind fun fontstack =>
            (param decode range).map fun range =>
              (source, .glyphs fontstack range)
      else
        none
  | [[], style, source, tiles, name, z, x, y] =>
      if style = "style".toList ∧ tiles = "tiles".toList then
        (param decode source).bind fun source =>
          (param decode name).bind fun name =>
            (param decode z).bind fun z =>
            (param decode x).bind fun x =>
            (param decode y).bind fun y =>
              (parseUnsigned u32Max z.toList).bind fun z =>
              (parseUnsigned u32Max x.toList).bind fun x =>
              (parseUnsigned u32Max y.toList).map fun y =>
                (source, .tile name z x y)
      else
        none
  | _ => none

/-- The upstream URL which a style route fetches for an asset that it
accepts. -/
def assetUrl (allowed : String → Bool) (service : Service Json)
    (source : String) (asset : AssetPath) : Option String :=
  (asset.key service source).bind fun _ =>
    ((service.app.styleState.lookup source).bind fun learned =>
      asset.upstream learned.content).filter allowed

def routedUrl (allowed : String → Bool) (service : Service Json)
    (path : List Char) : Option String :=
  (styleRoute decode path).bind fun found =>
    assetUrl allowed service found.1 found.2

/-- The upstream URL which the container fetches for a reference in a
document, if the request gets that far. -/
def proxiedUrl (page : Origin) (mount : Mount) (allowed : String → Bool)
    (service : Service Json) (reference : String) : Option String :=
  (mountedUrl page mount reference.toList).bind fun target =>
    (validatedContainerTarget target .style).bind fun target =>
      routedUrl decode allowed service (pathOf target)

end Routes

/-! ## The document -/

/-- `style_doc` for a document which has just been learned. -/
def styleDocument (service : Service Json) (source : String)
    (names : List String) : Option Json :=
  (service.app.styleState.lookup source).bind fun learned =>
    rewriteStyle service.app.publicBase source learned.content names
      learned.content.document

/-- The sprite of the document served at a target. -/
def servedSprite (page : Origin) (mount : Mount) (target : List Char) :
    String :=
  page.text ++ mount.text ++ String.ofList (rawPath target) ++ "/sprite"

/-- `rewriteStyleSprite` on the document. -/
def rewriteSprite (page : Origin) (mount : Mount) (target : List Char)
    (document : Json) : Option Json :=
  if ((document.get "sprite").bind Json.asString).isSome then
    document.assign "sprite" (.string (servedSprite page mount target))
  else
    some document

/-! ## Segments -/

section Segments

/-- A part of a path without the characters which end it or are refused. -/
def TargetSegment (segment : List Char) : Prop :=
  ∀ char ∈ segment, char ≠ '/' ∧ char ≠ '?' ∧ char ≠ '#' ∧
    char ≠ backslash ∧ controlCharacter char = false

/-- Text which a parser leaves as it stands in a path. -/
def PlainSegment (segment : List Char) : Prop :=
  ∀ char ∈ segment, pathEncoded char = false ∧ char ≠ '/' ∧ char ≠ backslash

variable {segment : List Char} {segments rest : List (List Char)}

theorem PlainSegment.target (plain : PlainSegment segment) :
    TargetSegment segment := by
  intro char member
  obtain ⟨kept, slash, back⟩ := plain char member
  simp only [pathEncoded, Bool.or_eq_false_iff, decide_eq_false_iff_not]
    at kept
  obtain ⟨⟨low, high⟩, listed⟩ := kept
  refine ⟨slash, ?_, ?_, back, ?_⟩
  · intro same
    rw [same] at listed
    exact absurd listed (by decide)
  · intro same
    rw [same] at listed
    exact absurd listed (by decide)
  · have separators : char.toNat ≠ 0x2028 ∧ char.toNat ≠ 0x2029 := by
      omega
    simp only [controlCharacter, Bool.or_eq_false_iff, Bool.and_eq_false_iff,
      decide_eq_false_iff_not, beq_eq_false_iff_ne]
    omega

theorem PlainSegment.encoded (plain : PlainSegment segment) :
    encodeSegment segment = segment :=
  encodeSegment_of_plain fun char member => (plain char member).1

/-- A text of letters and digits with the marks of ids, escapes and sprite
files. -/
theorem plainSegment_of_marks
    (marks : ∀ char ∈ segment, char.isAlphanum = true ∨
      char ∈ "%._-@".toList) : PlainSegment segment := by
  intro char member
  rcases marks char member with plain | mark
  · have small := isAlphanum_lt plain
    have checked : (List.range 128).all (fun point =>
        !(Char.ofNat point).isAlphanum || !pathEncoded (Char.ofNat point) &&
          Char.ofNat point != '/' && Char.ofNat point != backslash) = true := by
      decide +kernel
    have found := List.all_eq_true.mp checked char.toNat
      (List.mem_range.mpr small)
    rw [Char.ofNat_toNat, plain] at found
    simpa [and_assoc] using found
  · have checked : "%._-@".toList.all (fun char =>
        !pathEncoded char && char != '/' && char != backslash) = true := by
      decide
    simpa [and_assoc] using List.all_eq_true.mp checked char mark

/-- The path with some segments. -/
def pathWith (segments : List (List Char)) : List Char :=
  '/' :: ['/'].intercalate segments

theorem splitOn_pathWith (nonempty : segments ≠ [])
    (free : ∀ segment ∈ segments, '/' ∉ segment) :
    (pathWith segments).splitOn '/' = [] :: segments := by
  have split : (['/'].intercalate segments).splitOn '/' = segments :=
    List.splitOn_intercalate '/' free nonempty
  have whole : pathWith segments =
      [] ++ '/' :: ['/'].intercalate segments := by
    rfl
  rw [whole, List.splitOn_append_cons_self, split]
  rfl

theorem mem_pathWith {char : Char} (member : char ∈ pathWith segments) :
    char = '/' ∨ ∃ segment ∈ segments, char ∈ segment := by
  rcases List.mem_cons.mp member with slash | inside
  · exact .inl slash
  · induction segments with
    | nil => cases inside
    | cons first rest induction =>
        cases rest with
        | nil =>
            rw [List.intercalate_singleton] at inside
            exact .inr ⟨first, List.mem_cons_self, inside⟩
        | cons next rest =>
            rw [List.intercalate_cons_cons, List.mem_append,
              List.mem_append, List.mem_singleton] at inside
            rcases inside with (within | slash) | later
            · exact .inr ⟨first, List.mem_cons_self, within⟩
            · exact .inl slash
            · have again := induction (List.mem_cons_of_mem _ later) later
              exact again.imp_right fun ⟨segment, known, within⟩ =>
                ⟨segment, List.mem_cons_of_mem _ known, within⟩

theorem free_of_target (targets : ∀ segment ∈ segments,
    TargetSegment segment) : ∀ segment ∈ segments, '/' ∉ segment :=
  fun segment member slash => (targets segment member '/' slash).1 rfl

theorem rawPath_pathWith (targets : ∀ segment ∈ segments,
    TargetSegment segment) :
    rawPath (pathWith segments) = pathWith segments := by
  apply List.takeWhile_eq_self_iff.mpr
  intro char member
  rcases mem_pathWith member with rfl | ⟨segment, known, inside⟩
  · decide
  · exact bne_iff_ne.mpr (targets segment known char inside).2.1

theorem plainSegment_style : PlainSegment "style".toList := by
  apply plainSegment_of_marks
  have checked : "style".toList.all Char.isAlphanum = true := by
    decide
  intro char member
  exact .inl (List.all_eq_true.mp checked char member)

/-- A path of such segments is forwarded exactly if none of them is
unsafe. -/
theorem validated_pathWith (nonempty : rest ≠ [])
    (targets : ∀ segment ∈ rest, TargetSegment segment) :
    validatedContainerTarget (pathWith ("style".toList :: rest)) .style =
      if rest.any unsafePathSegment then none
      else some (pathWith ("style".toList :: rest)) := by
  have all : ∀ segment ∈ "style".toList :: rest, TargetSegment segment :=
    List.forall_mem_cons.mpr ⟨plainSegment_style.target, targets⟩
  have printable : ∀ char ∈ pathWith ("style".toList :: rest),
      char ≠ '#' ∧ controlCharacter char = false := by
    intro char member
    rcases mem_pathWith member with rfl | ⟨segment, known, inside⟩
    · exact ⟨by decide, by decide⟩
    · have allowed := all segment known char inside
      exact ⟨allowed.2.2.1, allowed.2.2.2.2⟩
  have clean : ((pathWith ("style".toList :: rest)).contains '#' ||
      (pathWith ("style".toList :: rest)).any controlCharacter) = false := by
    simp only [Bool.or_eq_false_iff, List.contains_eq_mem,
      decide_eq_false_iff_not, List.any_eq_false, Bool.not_eq_true]
    exact ⟨fun member => (printable '#' member).1 rfl,
      fun char member => (printable char member).2⟩
  have begins : ContainerPrefix.style.text.isPrefixOf
      (pathWith ("style".toList :: rest)) = true := by
    apply List.isPrefixOf_iff_prefix.mpr
    refine ⟨['/'].intercalate rest, ?_⟩
    rw [pathWith, List.intercalate_cons_of_ne_nil nonempty]
    rfl
  have fixed : unsafePathSegment [] = false ∧
      unsafePathSegment "style".toList = false := by
    decide +kernel
  simp only [validatedContainerTarget, clean, rawPath_pathWith all, begins,
    splitOn_pathWith (List.cons_ne_nil _ _) (free_of_target all),
    List.any_cons, fixed.1, fixed.2, Bool.false_or, Bool.not_true,
    Bool.false_eq_true, if_false]

/-- A parser keeps the segments of such a path and encodes each of them. -/
theorem pathOf_pathWith (nonempty : segments ≠ [])
    (targets : ∀ segment ∈ segments, TargetSegment segment)
    (passed : ∀ segment ∈ segments, unsafePathSegment segment = false) :
    pathOf (pathWith segments) = pathWith (segments.map encodeSegment) := by
  have noFragment : '#' ∉ pathWith segments := by
    intro member
    rcases mem_pathWith member with same | ⟨segment, known, inside⟩
    · exact absurd same (by decide)
    · exact (targets segment known '#' inside).2.2.1 rfl
  have split : (['/'].intercalate segments).splitOn '/' = segments :=
    List.splitOn_intercalate '/' (free_of_target targets) nonempty
  have path : ((pathWith segments).takeWhile fun char =>
      char != '?' && char != '#') = '/' :: ['/'].intercalate segments :=
    (takeWhile_of_noFragment noFragment).trans (rawPath_pathWith targets)
  rw [pathOf_of_undotted path, split, pathWith]
  · intro member
    have within : backslash ∈ pathWith segments :=
      List.mem_cons_of_mem _ member
    rcases mem_pathWith within with same | ⟨segment, known, inside⟩
    · exact absurd same (by decide)
    · exact (targets segment known backslash inside).2.2.2.1 rfl
  · intro segment member
    rw [split] at member
    exact undotted_of_passed (passed segment member)

/-- A harmless segment without escapes passes. -/
theorem passed_of_plain (harmless : Harmless segment)
    (plain : '%' ∉ segment) : unsafePathSegment segment = false := by
  have checks := harmless_iff.mpr harmless
  rw [unsafePathSegment, unsafeWithin, if_neg (by simp [checks]),
    decode_of_plain plain]
  exact if_pos rfl

theorem slash_notMem_encodeSegment (free : '/' ∉ segment) :
    '/' ∉ encodeSegment segment := by
  intro member
  obtain ⟨char, source, inside⟩ := List.mem_flatMap.mp member
  unfold percentEncode at inside
  split at inside
  · have escaped : '/' ∈ escapeBytes (utf8Bytes char.toNat) := by
      rw [← map_toNat_utf8EncodeChar, escapeBytes, List.flatMap_map]
      exact inside
    cases mem_escapeBytes escaped with
    | inl percent => exact absurd percent (by decide)
    | inr plain => exact absurd plain (by decide)
  · cases List.mem_singleton.mp inside
    exact free source

end Segments

end ChartLocker.Plugin.StyleProxy
