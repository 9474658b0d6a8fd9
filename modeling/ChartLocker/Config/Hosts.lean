import ChartLocker.Config.Validity
import ChartLocker.Catalog.Upstream

/-!
# Hosts of tile URLs

Which host a tile is fetched from.  The validator keeps placeholders out of
what it takes for the authority of a template; the URL parser may find the
authority elsewhere.
-/

namespace ChartLocker.Config

open Library Catalog Library.Placeholder

/-- The numbers which the tokens of a template stand for. -/
def coordinates (z x y : Nat) : Char → Option Nat :=
  Function.update (Function.update (Function.update (fun _ => none)
    'z' (some z)) 'x' (some x)) 'y' (some y)

theorem expandTemplate_eq_fill {template : String} {z x y : Nat} :
    expandTemplate template z x y =
      String.ofList (fill (coordinates z x y) template.toList) := by
  have plain : template =
      String.ofList (fill (fun _ => none) template.toList) := by
    rw [fill_none, String.ofList_toList]
  unfold expandTemplate coordinates
  conv_lhs => rw [plain]
  calc Text.replace (Text.replace (Text.replace _ "{z}" z.repr) "{x}" x.repr)
        "{y}" y.repr
      = Text.replace (Text.replace _ "{x}" x.repr) "{y}" y.repr := by
        rw [show "{z}" = String.ofList ['{', 'z', '}'] from rfl,
          replace_fill (by decide) rfl]
    _ = Text.replace _ "{y}" y.repr := by
        rw [show "{x}" = String.ofList ['{', 'x', '}'] from rfl,
          replace_fill (by decide) rfl]
    _ = _ := replace_fill (by decide) rfl

/-- The tokens of which a source has several values. -/
def Varies (source : ChartSource) (token : Char) : Prop :=
  (token = 'z' ∧ source.minzoom < source.maxzoom) ∨
    ((token = 'x' ∨ token = 'y') ∧ 0 < source.maxzoom)

instance (source : ChartSource) (token : Char) :
    Decidable (Varies source token) :=
  inferInstanceAs (Decidable (_ ∨ _))

theorem mem_tokens_of_varies {source : ChartSource} {token : Char}
    (varies : Varies source token) : token ∈ ['z', 'x', 'y'] := by
  rcases varies with ⟨rfl, _⟩ | ⟨rfl | rfl, _⟩ <;> decide

/-! Another zoom, column or row is another number for one token. -/

theorem coordinates_zoom {z x y zoom : Nat} :
    coordinates zoom x y =
      Function.update (coordinates z x y) 'z' (some zoom) := by
  unfold coordinates
  rw [Function.update_comm (by decide : 'y' ≠ 'z'),
    Function.update_comm (by decide : 'x' ≠ 'z'), Function.update_idem]

theorem coordinates_column {z x y column : Nat} :
    coordinates z column y =
      Function.update (coordinates z x y) 'x' (some column) := by
  unfold coordinates
  rw [Function.update_comm (by decide : 'y' ≠ 'x'), Function.update_idem]

theorem coordinates_row {z x y row : Nat} :
    coordinates z x row =
      Function.update (coordinates z x y) 'y' (some row) := by
  unfold coordinates
  rw [Function.update_idem]

/-- Two tiles which differ in the number of one token: two zooms, or two
columns or rows of the last zoom. -/
theorem exists_update_of_varies {source : ChartSource} {token : Char}
    (ordered : source.minzoom ≤ source.maxzoom) (bounded : source.maxzoom < 64)
    (varies : Varies source token) :
    ∃ z x y z' x' y' left right, ∃ value : Char → Option Nat,
      inRange source z x y = .ok () ∧ inRange source z' x' y' = .ok () ∧
        left ≠ right ∧
        coordinates z x y = Function.update value token (some left) ∧
        coordinates z' x' y' = Function.update value token (some right) := by
  have zero : ∀ zoom, 0 < 2 ^ zoom := fun zoom => Nat.two_pow_pos zoom
  rcases varies with ⟨rfl, several⟩ | ⟨which, several⟩
  · have lowest : inRange source source.minzoom 0 0 = .ok () :=
      inRange_eq_ok.mpr ⟨le_refl _, ordered, by omega, zero _, zero _⟩
    have highest : inRange source source.maxzoom 0 0 = .ok () :=
      inRange_eq_ok.mpr ⟨ordered, le_refl _, bounded, zero _, zero _⟩
    exact ⟨_, _, _, _, _, _, _, _, coordinates 0 0 0, lowest, highest,
      several.ne, coordinates_zoom, coordinates_zoom⟩
  · have one : 1 < 2 ^ source.maxzoom :=
      Nat.one_lt_two_pow several.ne'
    have corner : inRange source source.maxzoom 0 0 = .ok () :=
      inRange_eq_ok.mpr ⟨ordered, le_refl _, bounded, zero _, zero _⟩
    rcases which with rfl | rfl
    · have second : inRange source source.maxzoom 1 0 = .ok () :=
        inRange_eq_ok.mpr ⟨ordered, le_refl _, bounded, one, zero _⟩
      exact ⟨_, _, _, _, _, _, _, _, coordinates source.maxzoom 0 0, corner,
        second, Nat.zero_ne_one, coordinates_column, coordinates_column⟩
    · have second : inRange source source.maxzoom 0 1 = .ok () :=
        inRange_eq_ok.mpr ⟨ordered, le_refl _, bounded, zero _, one⟩
      exact ⟨_, _, _, _, _, _, _, _, coordinates source.maxzoom 0 0, corner,
        second, Nat.zero_ne_one, coordinates_row, coordinates_row⟩

/-- No token with several values stands where the URL parser looks for the
host. -/
def HostTextClear (source : ChartSource) (template : String) : Prop :=
  ∀ token ∈ ['z', 'x', 'y'], Varies source token →
    ¬ Mentions token (Url.hostText template.toList)

instance (source : ChartSource) (template : String) :
    Decidable (HostTextClear source template) :=
  @List.decidableBAll _ (fun token => Varies source token →
      ¬ ['{', token, '}'] <:+: Url.hostText template.toList)
    inferInstance ['z', 'x', 'y']

section Hosts

variable (parseHost : List Char → Option String)
  (bboxStr : Nat → Nat → Nat → String) (source : ChartSource)

/-- The host of the URL of a tile, if the tile is in range and the URL can be
read. -/
def hostOfTile (z x y : Nat) : Option String :=
  match expandUpstream bboxStr source z x y with
  | .ok url => (Url.readUrl parseHost url).map Url.Record.host
  | .error _ => none

/-- No two tiles are fetched from different hosts. -/
def HostIsFixed : Prop :=
  ∀ z x y z' x' y' host host',
    hostOfTile parseHost bboxStr source z x y = some host →
      hostOfTile parseHost bboxStr source z' x' y' = some host' →
        host = host'

/-- The URL of every tile can be read and its host is kept as it is written,
as a host of lower-case letters, digits and dots is. -/
def HostsAsWritten (template : String) : Prop :=
  ∀ z x y, inRange source z x y = .ok () →
    hostOfTile parseHost bboxStr source z x y =
      some (String.ofList
        (Url.hostText (expandTemplate template z x y).toList))

variable {parseHost} {bboxStr} {source} {template : String}

/-- The number of a token which does not vary is that of every tile. -/
theorem coordinates_eq {token : Char} {z x y z' x' y' : Nat}
    (inside : inRange source z x y = .ok ())
    (inside' : inRange source z' x' y' = .ok ())
    (fixed : ¬ Varies source token) :
    coordinates z x y token = coordinates z' x' y' token := by
  obtain ⟨low, high, _, column, row⟩ := inRange_eq_ok.mp inside
  obtain ⟨low', high', _, column', row'⟩ := inRange_eq_ok.mp inside'
  simp only [Varies, not_or, not_and, not_lt] at fixed
  obtain ⟨zoom, place⟩ := fixed
  simp only [coordinates, Function.update_apply]
  split
  · next same =>
    obtain rfl : z = 0 := by have := place (.inr same); omega
    obtain rfl : z' = 0 := by have := place (.inr same); omega
    congr 1
    omega
  · split
    · next same =>
      obtain rfl : z = 0 := by have := place (.inl same); omega
      obtain rfl : z' = 0 := by have := place (.inl same); omega
      congr 1
      omega
    · split
      · next same =>
        have := zoom same
        congr 1
        omega
      · rfl

/-- What ends the parts of a URL is no part of a token. -/
theorem isDelimiter_coordinates {z x y : Nat} {char : Char}
    (ends : Url.endsAuthority char = true ∨ char = '@' ∨ char = ':' ∨
      char = '[' ∨ char = ']') :
    Url.IsDelimiter (coordinates z x y) char := by
  have listed : char = '/' ∨ char = Char.ofNat 0x5c ∨ char = '?' ∨
      char = '#' ∨ char = '@' ∨ char = ':' ∨ char = '[' ∨ char = ']' := by
    simp only [Url.endsAuthority, Url.isSlash, Bool.or_eq_true, beq_iff_eq]
      at ends
    tauto
  rcases listed with rfl | rfl | rfl | rfl | rfl | rfl | rfl | rfl <;>
    exact ⟨by decide, by decide, by decide, rfl⟩

theorem hostText_expandTemplate {z x y : Nat} :
    Url.hostText (expandTemplate template z x y).toList =
      fill (coordinates z x y) (Url.hostText template.toList) := by
  rw [expandTemplate_eq_fill, String.toList_ofList]
  exact Url.hostText_fill fun _ => isDelimiter_coordinates

/-- The host of a tile is what the host parser makes of the filled host
text. -/
theorem parseHost_of_hostOfTile {z x y : Nat} {host : String}
    (upstream : source.upstream = .xyz template ∨
      source.upstream = .wmts template)
    (found : hostOfTile parseHost bboxStr source z x y = some host) :
    inRange source z x y = .ok () ∧
      parseHost (fill (coordinates z x y) (Url.hostText template.toList)) =
        some host := by
  have expanded : expandUpstream bboxStr source z x y =
      (inRange source z x y).map fun _ => expandTemplate template z x y := by
    unfold expandUpstream
    rcases upstream with same | same <;> rw [same]
  unfold hostOfTile at found
  rw [expanded] at found
  cases inside : inRange source z x y with
  | error text =>
      rw [inside] at found
      contradiction
  | ok _ =>
      rw [inside] at found
      obtain ⟨url, read, rfl⟩ := Option.map_eq_some_iff.mp found
      rw [← hostText_expandTemplate]
      exact ⟨rfl, Url.parseHost_hostText read⟩

/-- Tiles are fetched from one host when no token which varies stands where
the URL parser looks for the host.  Where hosts are kept as they are written
the host is fixed only then. -/
theorem tile_host_is_fixed_iff
    (upstream : source.upstream = .xyz template ∨
      source.upstream = .wmts template)
    (valid : isValid parseHost source false = true) :
    (HostTextClear source template → HostIsFixed parseHost bboxStr source) ∧
      (HostsAsWritten parseHost bboxStr source template →
        (HostIsFixed parseHost bboxStr source ↔
          HostTextClear source template)) := by
  have enough : HostTextClear source template →
      HostIsFixed parseHost bboxStr source := by
    intro clear z x y z' x' y' host host' found found'
    obtain ⟨inside, parsed⟩ := parseHost_of_hostOfTile upstream found
    obtain ⟨inside', parsed'⟩ := parseHost_of_hostOfTile upstream found'
    have same : fill (coordinates z x y) (Url.hostText template.toList) =
        fill (coordinates z' x' y') (Url.hostText template.toList) := by
      refine fill_congr fun token mentioned => ?_
      refine coordinates_eq inside inside' fun varies => ?_
      exact clear token (mem_tokens_of_varies varies) varies mentioned
    rw [same, parsed'] at parsed
    exact (Option.some.inj parsed).symm
  refine ⟨enough, fun written => ⟨?_, enough⟩⟩
  intro fixed token member varies mentioned
  obtain ⟨ordered, bounded⟩ := zooms_of_isValid valid
  obtain ⟨z, x, y, z', x', y', left, right, value, inside, inside',
    different, valueLeft, valueRight⟩ :=
    exists_update_of_varies ordered (by omega) varies
  have texts := fixed z x y z' x' y' _ _ (written z x y inside)
    (written z' x' y' inside')
  rw [hostText_expandTemplate, hostText_expandTemplate] at texts
  have filled := congrArg String.toList texts
  rw [String.toList_ofList, String.toList_ofList, valueLeft, valueRight]
    at filled
  have named : IsName token := by
    rcases varies with ⟨rfl, _⟩ | ⟨rfl | rfl, _⟩ <;> decide
  exact different (eq_of_fill_eq named mentioned filled)

end Hosts

/-! ## A template with three slashes -/

/-- A host parser which knows names of lower-case letters, digits and dots
under a domain of letters, and keeps them. -/
def plainHost (text : List Char) : Option String :=
  let isPlain := fun char : Char =>
    char.isLower || char.isDigit || char == '.'
  if text.all isPlain ∧ (text.getLast?).any Char.isLower then
    some (String.ofList text)
  else
    none

def sampleTiles (template : String) : ChartSource where
  id := "harbour"
  title := "Harbour"
  upstream := .xyz template
  tileSize := 256
  minzoom := 0
  maxzoom := 1
  vectorMaxzoom := none
  bounds := none
  coverage := none
  maxAgeSeconds := none
  attribution := ""

def noBbox (_ _ _ : Nat) : String := ""

def plainTiles : ChartSource :=
  sampleTiles "https://tiles.example.com/{z}/{x}/{y}.png"

/-- The validator takes the authority to be empty, the URL parser skips the
third slash. -/
def scatteredTiles : ChartSource :=
  sampleTiles "https:///{z}.example.com/{x}/{y}.png"

theorem tile_host_depends_on_zoom :
    isValid plainHost scatteredTiles false = true ∧
      ¬ HostIsFixed plainHost noBbox scatteredTiles := by
  refine ⟨by decide +kernel, fun fixed => ?_⟩
  have first : hostOfTile plainHost noBbox scatteredTiles 0 0 0 =
      some "0.example.com" := by
    decide +kernel
  have second : hostOfTile plainHost noBbox scatteredTiles 1 0 0 =
      some "1.example.com" := by
    decide +kernel
  exact absurd (fixed 0 0 0 1 0 0 _ _ first second) (by decide)

theorem hostsAsWritten_scatteredTiles :
    HostsAsWritten plainHost noBbox scatteredTiles
      "https:///{z}.example.com/{x}/{y}.png" := by
  intro z x y inside
  obtain ⟨_, high, _, column, row⟩ := inRange_eq_ok.mp inside
  have zoom : z = 0 ∨ z = 1 := by
    change z ≤ 1 at high
    omega
  rcases zoom with rfl | rfl
  · obtain rfl : x = 0 := by omega
    obtain rfl : y = 0 := by omega
    decide +kernel
  · obtain rfl | rfl : x = 0 ∨ x = 1 := by omega
    all_goals obtain rfl | rfl : y = 0 ∨ y = 1 := by omega
    all_goals decide +kernel

theorem tile_host_of_sampleTiles :
    HostIsFixed plainHost noBbox plainTiles ∧
      ¬ HostIsFixed plainHost noBbox scatteredTiles := by
  constructor
  · have valid : isValid plainHost plainTiles false = true := by
      decide +kernel
    exact (tile_host_is_fixed_iff (.inl rfl) valid).1 (by decide +kernel)
  · have valid : isValid plainHost scatteredTiles false = true := by
      decide +kernel
    intro fixed
    have clear := ((tile_host_is_fixed_iff (.inl rfl) valid).2
      hostsAsWritten_scatteredTiles).mp fixed
    exact absurd clear (by decide +kernel)

end ChartLocker.Config
