import ChartLocker.Library.Text
import ChartLocker.Library.UrlPath
import ChartLocker.Style.Survival
import ChartLocker.Warm.Machine

/-!
# The keys of style assets

The requests of the style routes below one learned style: the key under which
each of them is cached and the upstream URL which answers it.  A key is the
concatenation of the namespace, the source id and a name, and numbers in the
place of a tile's coordinates.
-/

namespace ChartLocker.Style

open Library Cache Catalog Config Warm

variable {Document : Type}

/-! ## Source ids -/

def isIdChar (char : Char) : Bool :=
  char.isLower || char.isDigit

/-- The fold of `valid_source_id`: separators stand alone and not at the
end. -/
def wellSeparated : Bool → List Char → Bool
  | separator, [] => !separator
  | separator, char :: rest =>
      if isIdChar char then
        wellSeparated false rest
      else if (char = '.' ∨ char = '_' ∨ char = '-') ∧ separator = false then
        wellSeparated true rest
      else
        false

def validSourceId (value : String) : Bool :=
  value.toList.head?.any isIdChar && decide (value.utf8ByteSize ≤ 256) &&
    wellSeparated false value.toList

theorem colon_notMem_of_wellSeparated {separator : Bool} {text : List Char}
    (valid : wellSeparated separator text = true) : ':' ∉ text := by
  induction text generalizing separator with
  | nil => exact List.not_mem_nil
  | cons char rest induction =>
      simp only [wellSeparated] at valid
      rw [List.mem_cons, not_or]
      split at valid
      · next plain =>
        refine ⟨?_, induction valid⟩
        rintro rfl
        exact absurd plain (by decide)
      · split at valid
        · next separated =>
          refine ⟨?_, induction valid⟩
          rintro rfl
          exact absurd separated.1 (by decide)
        · contradiction

theorem colon_notMem_of_validSourceId {value : String}
    (valid : validSourceId value = true) : ':' ∉ value.toList := by
  simp only [validSourceId, Bool.and_eq_true] at valid
  exact colon_notMem_of_wellSeparated valid.2

theorem colon_notMem_repr (number : Nat) : ':' ∉ number.repr.toList := by
  rw [Nat.toList_repr]
  intro member
  have digit := Nat.isDigit_of_mem_toDigits (by decide) (by decide) member
  exact absurd digit (by decide)

/-! ## Upstream URLs -/

def u32Max : Nat := 4294967295

/-- `glyph_range`. -/
def glyphRange (range : String) : Option (Nat × String) :=
  (Text.stripSuffix range.toList ".pbf".toList).bind fun stem =>
  (Text.splitOnce '-' stem).bind fun parts =>
  (Text.parseUnsigned u32Max parts.1).bind fun start =>
  (Text.parseUnsigned u32Max parts.2).bind fun last =>
    if start % 256 ≠ 0 ∨ start > 0x10ff00 ∨ last ≠ start + 255 then
      none
    else
      some (start, start.repr ++ "-" ++ last.repr ++ ".pbf")

/-- `encode_fontstack`: every byte which is not an ASCII letter or digit is
encoded. -/
def encodeFontstack (fontstack : String) : String :=
  String.ofList (fontstack.toUTF8.toList.flatMap fun byte =>
    let char := Char.ofNat byte.toNat
    if byte.toNat < 128 ∧ char.isAlphanum then
      [char]
    else
      ['%', Url.upperHex (byte.toNat / 16), Url.upperHex (byte.toNat % 16)])

def expandGlyphUrl (template fontstack canonicalRange : String) : String :=
  let range := (Text.stripSuffix canonicalRange.toList ".pbf".toList).elim
    canonicalRange String.ofList
  Text.replace
    (Text.replace template "{fontstack}" (encodeFontstack fontstack))
    "{range}" range

def expandTileUrl (template : String) (z x y : Nat) : String :=
  Text.replace (Text.replace (Text.replace template "{z}" z.repr) "{x}"
    x.repr) "{y}" y.repr

/-! ## Requests -/

/-- What follows the source in the path of a style route. -/
inductive AssetPath where
  | glyphs (fontstack range : String)
  | sprite (variant : Nat)
  | tile (name : String) (z x y : Nat)

inductive AssetSpace where
  | glyphs
  | sprites
  | tiles
deriving DecidableEq

namespace AssetPath

def space : AssetPath → AssetSpace
  | .glyphs _ _ => .glyphs
  | .sprite _ => .sprites
  | .tile _ _ _ _ => .tiles

def request (source : String) : AssetPath → Option AssetRequest
  | .glyphs fontstack range => (glyphRange range).map fun found =>
      .glyph source fontstack found.1
  | .sprite variant => some (.sprite source variant)
  | .tile name z x y => some (.vectorTile source name z x y)

/-- The key under which a route caches the answer, `none` when it refuses the
request. -/
def key (service : Service Document) (source : String) (path : AssetPath) :
    Option TileKey :=
  ((path.request source).bind (AssetRequest.resolve service)).map Prod.fst

/-- The URL which a route fetches, `none` when the style names none. -/
def upstream (content : StyleContent Document) : AssetPath → Option String
  | .glyphs fontstack range => content.glyphs.bind fun template =>
      (glyphRange range).map fun found =>
        expandGlyphUrl template fontstack found.2
  | .sprite variant => content.spriteBase.bind fun base =>
      (spriteVariants.find? fun entry => entry.1 == variant).map fun entry =>
        base ++ entry.2.1
  | .tile name z x y =>
      ((content.sourceTiles.find? fun entry => entry.1 == name).bind
        fun entry => entry.2.head?).map fun template =>
          expandTileUrl template z x y

/-- The part of a key which names the asset within its style. -/
def suffix : AssetPath → String
  | .glyphs fontstack _ => "glyphs:" ++ fontstack
  | .sprite _ => "sprite"
  | .tile name _ _ _ => name

end AssetPath

/-! ## What a key says -/

/-- The source of a key of a learned style. -/
def keySource (source : String) (generation : Nat) (suffix : String) :
    String :=
  "style:" ++ generation.repr ++ ":" ++ source ++ ":" ++ suffix

theorem glyphCacheSourceAt_eq (source fontstack : String) (generation : Nat) :
    glyphCacheSourceAt source fontstack generation =
      keySource source generation ("glyphs:" ++ fontstack) := by
  rw [← String.toList_inj]
  simp only [glyphCacheSourceAt, keySource, String.toList_append,
    List.append_assoc]
  rfl

theorem spriteCacheSourceAt_eq (source : String) (generation : Nat) :
    spriteCacheSourceAt source generation =
      keySource source generation "sprite" := by
  rw [← String.toList_inj]
  simp only [spriteCacheSourceAt, keySource, String.toList_append,
    List.append_assoc]
  rfl

theorem keySource_inj {source other suffix otherSuffix : String}
    {generation otherGeneration : Nat}
    (valid : validSourceId source = true) (otherValid : validSourceId other =
      true)
    (same : keySource source generation suffix =
      keySource other otherGeneration otherSuffix) :
    source = other ∧ suffix = otherSuffix := by
  have chars := congrArg String.toList same
  simp only [keySource, String.toList_append, List.append_assoc] at chars
  have numbers := List.append_cancel_left chars
  obtain ⟨_, sources⟩ := Text.append_cons_inj (colon_notMem_repr _)
    (colon_notMem_repr _) numbers
  obtain ⟨ids, names⟩ := Text.append_cons_inj
    (colon_notMem_of_validSourceId valid)
    (colon_notMem_of_validSourceId otherValid) sources
  exact ⟨String.toList_inj.mp ids, String.toList_inj.mp names⟩

/-- The canonical range is a function of its start. -/
theorem glyphRange_canonical {range canonical : String} {start : Nat}
    (read : glyphRange range = some (start, canonical)) :
    canonical = start.repr ++ "-" ++ (start + 255).repr ++ ".pbf" := by
  simp only [glyphRange, Option.bind_eq_some_iff] at read
  obtain ⟨stem, _, parts, _, first, _, last, _, read⟩ := read
  split at read
  · contradiction
  · next aligned =>
    simp only [not_or, not_not] at aligned
    cases read
    rw [aligned.2.2]

section Keys

variable {service : Service Document} {source : String}
  {learned : StyleState Document} {key : TileKey}

/-- A request which a route accepts against a learned style, and the place
of its asset in the key. -/
inductive Placed (content : StyleContent Document) :
    AssetPath → Nat → Nat → Nat → Prop where
  | glyphs {fontstack range canonical : String} {start : Nat}
      (known : fontstack ∈ content.fontstacks)
      (read : glyphRange range = some (start, canonical)) :
      Placed content (.glyphs fontstack range) 0 start 0
  | sprite {variant : Nat} : Placed content (.sprite variant) 0 variant 0
  | tile {name : String} {z x y : Nat}
      (known : name ∈ content.sourceTiles.map Prod.fst) :
      Placed content (.tile name z x y) z x y

theorem learned_of_key {path : AssetPath}
    (cached : path.key service source = some key) :
    ∃ learned, service.app.styleState.lookup source = some learned := by
  cases found : service.app.styleState.lookup source with
  | some learned => exact ⟨learned, rfl⟩
  | none =>
      obtain ⟨_, resolved, _⟩ := Option.map_eq_some_iff.mp cached
      obtain ⟨request, asked, resolved⟩ :=
        Option.bind_eq_some_iff.mp resolved
      cases path with
      | glyphs fontstack range =>
          obtain ⟨_, _, rfl⟩ := Option.map_eq_some_iff.mp asked
          simp [AssetRequest.resolve, found] at resolved
      | sprite variant =>
          cases asked
          simp [AssetRequest.resolve, found] at resolved
      | tile name z x y =>
          cases asked
          simp [AssetRequest.resolve, found] at resolved

theorem key_eq_some (found : service.app.styleState.lookup source =
      some learned) {path : AssetPath}
    (cached : path.key service source = some key) :
    ∃ z x y, Placed learned.content path z x y ∧
      key = ⟨keySource source learned.generation path.suffix, z, x, y⟩ := by
  obtain ⟨⟨_, kind⟩, resolved, rfl⟩ := Option.map_eq_some_iff.mp cached
  obtain ⟨request, asked, resolved⟩ := Option.bind_eq_some_iff.mp resolved
  cases path with
  | glyphs fontstack range =>
      obtain ⟨⟨start, canonical⟩, read, rfl⟩ := Option.map_eq_some_iff.mp asked
      simp only [AssetRequest.resolve, found, Option.bind_some] at resolved
      split at resolved
      · next known =>
        cases resolved
        refine ⟨0, start, 0, .glyphs known.1 read, ?_⟩
        rw [glyphCacheSourceAt_eq]
        rfl
      · contradiction
  | sprite variant =>
      cases asked
      simp only [AssetRequest.resolve, found, Option.bind_some] at resolved
      obtain ⟨entry, _, same⟩ := Option.map_eq_some_iff.mp resolved
      cases same
      rw [spriteCacheSourceAt_eq]
      exact ⟨0, variant, 0, .sprite, rfl⟩
  | tile name z x y =>
      cases asked
      simp only [AssetRequest.resolve, found, Option.bind_some] at resolved
      split at resolved
      · next known =>
        cases resolved
        refine ⟨z, x, y, .tile ?_, rfl⟩
        obtain ⟨entry, stored, named⟩ := List.any_eq_true.mp known.1
        simp only [Bool.and_eq_true, beq_iff_eq] at named
        exact List.mem_map.mpr ⟨entry, stored, named.1⟩
      · contradiction

theorem glyphs_key (found : service.app.styleState.lookup source =
      some learned) {fontstack : String}
    (known : fontstack ∈ learned.content.fontstacks) :
    (AssetPath.glyphs fontstack "0-255.pbf").key service source =
      some ⟨keySource source learned.generation ("glyphs:" ++ fontstack),
        0, 0, 0⟩ := by
  have read : glyphRange "0-255.pbf" = some (0, "0-255.pbf") := by
    decide +kernel
  simp [AssetPath.key, AssetPath.request, read, AssetRequest.resolve, found,
    known, glyphCacheSourceAt_eq]

theorem sprite_key (found : service.app.styleState.lookup source =
      some learned) :
    (AssetPath.sprite 0).key service source =
      some ⟨keySource source learned.generation "sprite", 0, 0, 0⟩ := by
  simp [AssetPath.key, AssetPath.request, AssetRequest.resolve, found,
    spriteVariants, spriteCacheSourceAt_eq]

theorem tile_key (found : service.app.styleState.lookup source =
      some learned) {entry : String × List String}
    (stored : entry ∈ learned.content.sourceTiles)
    (nonempty : entry.2 ≠ []) :
    (AssetPath.tile entry.1 0 0 0).key service source =
      some ⟨keySource source learned.generation entry.1, 0, 0, 0⟩ := by
  have known : (learned.content.sourceTiles.any fun other =>
      other.1 == entry.1 && !other.2.isEmpty) = true :=
    List.any_eq_true.mpr ⟨entry, stored, by simp [nonempty]⟩
  simp only [AssetPath.key, AssetPath.request, Option.bind_some,
    AssetRequest.resolve, found, known, Nat.zero_le, Nat.pow_zero,
    Nat.zero_lt_one, and_self, if_true, Option.map_some]
  rfl

end Keys

/-! ## Key spaces -/

/-- A key determines its upstream, the three spaces of one style are disjoint,
and so are the keys of other sources, of every state of the service. -/
structure KeysSeparate (service : Service Document) (source : String)
    (content : StyleContent Document) : Prop where
  upstream : ∀ (left right : AssetPath) key,
    left.key service source = some key →
    right.key service source = some key →
      AssetPath.upstream content left = AssetPath.upstream content right
  spaces : ∀ (left right : AssetPath) key, left.key service source = some key →
    right.key service source = some key → left.space = right.space
  sources : ∀ (other : String) (later : Service Document),
    validSourceId other = true → other ≠ source →
      ∀ (left right : AssetPath) key, left.key service source = some key →
        right.key later other ≠ some key

/-- No sub-source has the name of the sprites or of the glyphs of a learned
font stack. -/
def NoReservedName (content : StyleContent Document) : Prop :=
  "sprite" ∉ content.sourceTiles.map Prod.fst ∧
    ∀ fontstack ∈ content.fontstacks,
      "glyphs:" ++ fontstack ∉ content.sourceTiles.map Prod.fst

section Spaces

variable {service : Service Document} {source : String}
  {learned : StyleState Document}

theorem glyphs_ne_sprite (fontstack : String) :
    "glyphs:" ++ fontstack ≠ "sprite" := by
  intro same
  have chars := congrArg (fun text => text.toList.head?) same
  rw [String.toList_append] at chars
  exact absurd (Option.some.inj chars) (by decide)

theorem glyphs_inj {left right : String}
    (same : "glyphs:" ++ left = "glyphs:" ++ right) : left = right := by
  have chars := congrArg String.toList same
  rw [String.toList_append, String.toList_append] at chars
  exact String.toList_inj.mp (List.append_cancel_left chars)

/-- Placed requests of one suffix belong to one space. -/
theorem space_of_suffix {content : StyleContent Document}
    (free : NoReservedName content) {left right : AssetPath}
    {z x y : Nat} (leftPlaced : Placed content left z x y)
    (rightPlaced : Placed content right z x y)
    (same : left.suffix = right.suffix) : left.space = right.space := by
  have carry : ∀ {name other : String}, name = other →
      other ∈ content.sourceTiles.map Prod.fst →
      name ∈ content.sourceTiles.map Prod.fst := fun equal => equal ▸ id
  cases leftPlaced with
  | glyphs known =>
      cases rightPlaced with
      | glyphs => rfl
      | sprite => exact absurd same (glyphs_ne_sprite _)
      | tile named => exact absurd (carry same named) (free.2 _ known)
  | sprite =>
      cases rightPlaced with
      | glyphs => exact absurd same.symm (glyphs_ne_sprite _)
      | sprite => rfl
      | tile named => exact absurd (carry same named) free.1
  | tile named =>
      cases rightPlaced with
      | glyphs known =>
          exact absurd (carry same.symm named) (free.2 _ known)
      | sprite => exact absurd (carry same.symm named) free.1
      | tile => rfl

/-- Within one space the suffix and the place determine the upstream. -/
theorem upstream_of_place {content : StyleContent Document}
    {left right : AssetPath} {z x y : Nat}
    (leftPlaced : Placed content left z x y)
    (rightPlaced : Placed content right z x y)
    (same : left.suffix = right.suffix) (space : left.space = right.space) :
    AssetPath.upstream content left = AssetPath.upstream content right := by
  cases leftPlaced with
  | glyphs _ read =>
      cases rightPlaced with
      | glyphs _ other =>
          obtain rfl := glyphs_inj same
          simp only [AssetPath.upstream, read, other, Option.map_some,
            glyphRange_canonical read, glyphRange_canonical other]
      | sprite => contradiction
      | tile => contradiction
  | sprite =>
      cases rightPlaced with
      | sprite => rfl
      | glyphs => contradiction
      | tile => contradiction
  | tile =>
      cases rightPlaced with
      | tile =>
          obtain rfl : _ = _ := same
          rfl
      | glyphs => contradiction
      | sprite => contradiction

/-- A key of a learned style determines its upstream, and the key spaces are
disjoint, exactly if no sub-source has a reserved name. -/
theorem keysSeparate_iff {allowed : String → Bool} {document : Json}
    {tilejson : String → Option Json} {service : Service Json}
    {learned : StyleState Json}
    (valid : validSourceId source = true)
    (found : service.app.styleState.lookup source = some learned)
    (learns : learnStyle allowed document tilejson = some learned.content) :
    KeysSeparate service source learned.content ↔
      NoReservedName learned.content := by
  obtain ⟨layers, members, sources, accepted⟩ := accepted_of_learnStyle learns
  have reserved : ∀ suffix path, AssetPath.space path ≠ .tiles →
      AssetPath.key service source path =
        some ⟨keySource source learned.generation suffix, 0, 0, 0⟩ →
      KeysSeparate service source learned.content →
      suffix ∉ learned.content.sourceTiles.map Prod.fst := by
    intro suffix path space key separate named
    obtain ⟨entry, stored, rfl⟩ := List.mem_map.mp named
    have nonempty := (sourceTiles_checked accepted entry stored).2.2.1
    exact space (separate.spaces _ _ _ key (tile_key found stored nonempty))
  constructor
  · intro separate
    refine ⟨reserved _ _ ?_ (sprite_key found) separate,
      fun fontstack known => reserved _ _ ?_ (glyphs_key found known)
        separate⟩
    · simp [AssetPath.space]
    · simp [AssetPath.space]
  · intro free
    have placed : ∀ (left right : AssetPath) key,
        left.key service source = some key →
        right.key service source = some key →
        ∃ z x y, Placed learned.content left z x y ∧
          Placed learned.content right z x y ∧
          left.suffix = right.suffix := by
      intro left right key leftKey rightKey
      obtain ⟨z, x, y, leftPlaced, rfl⟩ := key_eq_some found leftKey
      obtain ⟨z', x', y', rightPlaced, same⟩ := key_eq_some found rightKey
      obtain ⟨names, rfl, rfl, rfl⟩ := TileKey.mk.inj same
      exact ⟨_, _, _, leftPlaced, rightPlaced,
        (keySource_inj valid valid names).2⟩
    refine ⟨?_, ?_, ?_⟩
    · intro left right key leftKey rightKey
      obtain ⟨z, x, y, leftPlaced, rightPlaced, same⟩ :=
        placed left right key leftKey rightKey
      exact upstream_of_place leftPlaced rightPlaced same
        (space_of_suffix free leftPlaced rightPlaced same)
    · intro left right key leftKey rightKey
      obtain ⟨z, x, y, leftPlaced, rightPlaced, same⟩ :=
        placed left right key leftKey rightKey
      exact space_of_suffix free leftPlaced rightPlaced same
    · intro other later otherValid apart left right key leftKey rightKey
      obtain ⟨z, x, y, _, rfl⟩ := key_eq_some found leftKey
      obtain ⟨others, otherFound⟩ := learned_of_key rightKey
      obtain ⟨z', x', y', _, same⟩ := key_eq_some otherFound rightKey
      obtain ⟨names, _⟩ := TileKey.mk.inj same
      exact apart (keySource_inj valid otherValid names).1.symm

/-- A style with a sub-source of the name of the sprites. -/
def iconStyle : Json :=
  .object [("layers", .array []),
    ("sprite", .string "https://tiles.org/icons"),
    ("sources", .object
      [("sprite", .object [("type", .string "vector"),
        ("tiles", .array [.string "https://tiles.org/{z}/{x}/{y}"])])])]

/-- A service over the state of a deployment which has learned a style. -/
def serviceOver (app : AppState Json) : Service Json :=
  { firstService
      { toEnvironment := sampleLearner
        negativeTtlSecs := 3600
        maxBlobBytes := 1000000
        tileForLngLat := fun _ _ _ => (0, 0)
        strongEtag := fun body => body.length.repr
        expandGlyphUrl := expandGlyphUrl
        isJsonObject := fun _ => true }
      Tables.empty false sampleBootId with
    app := app }

theorem iconStyle_shares_key :
    ∃ app learned key,
      (configMachine sampleLearner).exec (firstBoot sampleLearner)
        (learning iconStyle ++ [.learnCommit 2 60]) = some app ∧
      app.styleState.lookup "chart" = some learned ∧
      (AssetPath.sprite 0).key (serviceOver app) "chart" = some key ∧
      (AssetPath.tile "sprite" 0 0 0).key (serviceOver app) "chart" =
        some key ∧
      AssetPath.upstream learned.content (.sprite 0) =
        some "https://tiles.org/icons.json" ∧
      AssetPath.upstream learned.content (.tile "sprite" 0 0 0) =
        some "https://tiles.org/0/0/0" := by
  refine ⟨_, _, _, rfl, rfl, rfl, rfl, ?_, ?_⟩
  · rfl
  · rfl

theorem keysSeparate_iff_tiledRelief :
    ∃ app learned,
      (configMachine sampleLearner).exec (firstBoot sampleLearner)
        (learning (reliefStyle tiledRelief) ++ [.learnCommit 2 60]) =
          some app ∧
      app.styleState.lookup "chart" = some learned ∧
      KeysSeparate (serviceOver app) "chart" learned.content := by
  obtain ⟨app, learned, content, run, found, learns, same, free⟩ :
      ∃ app learned content,
        (configMachine sampleLearner).exec (firstBoot sampleLearner)
          (learning (reliefStyle tiledRelief) ++ [.learnCommit 2 60]) =
            some app ∧
        app.styleState.lookup "chart" = some learned ∧
        learnStyle (fun url => sampleBase.styleUrlAllowed url ["tiles.org"]
          false) (reliefStyle tiledRelief) (fun _ => none) = some content ∧
        learned.content = content ∧
        content.sourceTiles.map Prod.fst = ["osm", "relief"] ∧
        content.fontstacks = ["Noto"] :=
    ⟨_, _, _, rfl, rfl, rfl, rfl, rfl, rfl⟩
  refine ⟨app, learned, run, found, ?_⟩
  refine (keysSeparate_iff (by decide +kernel) found (same ▸ learns)).mpr ?_
  rw [NoReservedName, same, free.1, free.2]
  exact ⟨by decide, by decide⟩

end Spaces

end ChartLocker.Style
