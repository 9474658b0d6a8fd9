import ChartLocker.Config.State
import ChartLocker.Library.Url
import ChartLocker.Style.Keys

/-!
# Valid sources

`is_valid` of `source.rs`, by which a push of the configuration accepts a
source.  URLs are read by the parser of `Library.Url`; the host parser below
it is a parameter.  A coordinate of a box is a rational number and so is
always finite.
-/

namespace ChartLocker.Config

open Library Catalog

def maxTitleBytes : Nat := 256
def maxAttributionBytes : Nat := 16 * 1024
def maxUrlBytes : Nat := 4 * 1024
def maxCoverageBoxes : Nat := 64
def maxWmsLayerBytes : Nat := 1024
def maxWmsStyleBytes : Nat := 1024
def maxWmsFormatBytes : Nat := 128
def maxAllowedHosts : Nat := 32
def maxHostBytes : Nat := 253

/-- `str::eq_ignore_ascii_case`. -/
def eqIgnoreAsciiCase (left right : String) : Bool :=
  left.toList.map Char.toLower == right.toList.map Char.toLower

def hasSpaceOrControl (value : String) : Bool :=
  value.toList.any fun char => isControl char || isWhitespace char

def validBoundedText (value : String) (maxBytes : Nat) (allowEmpty : Bool) :
    Bool :=
  decide (value.utf8ByteSize ≤ maxBytes) &&
    ((allowEmpty && value == "") || !value.toList.all isWhitespace) &&
    !value.toList.any fun char =>
      isControl char && !(char == '\t' || char == '\n' || char == '\r')

def validSourceBbox (bbox : BBox) : Bool :=
  decide (-180 ≤ bbox.west ∧ bbox.west ≤ 180) &&
    decide (-180 ≤ bbox.east ∧ bbox.east ≤ 180) &&
    decide (-90 ≤ bbox.south ∧ bbox.south ≤ 90) &&
    decide (-90 ≤ bbox.north ∧ bbox.north ≤ 90) &&
    decide (bbox.west ≠ bbox.east) &&
    !(decide (bbox.west > bbox.east) &&
      decide (|bbox.west - bbox.east| = 360)) &&
    decide (bbox.south < bbox.north)

def validQueryValue (value : String) (maxBytes : Nat) (allowEmpty : Bool) :
    Bool :=
  validBoundedText value maxBytes allowEmpty && !hasSpaceOrControl value &&
    !value.toList.any fun char =>
      char == '&' || char == '?' || char == '#' || char == '+'

/-! ## Hosts -/

/-- The host without the brackets of an IPv6 address, if it is an address. -/
def hostAsIp (host : String) : Option Url.IpAddr :=
  let isBracket := fun char => char == '[' || char == ']'
  Url.parseIpAddr
    ((host.toList.dropWhile isBracket).reverse.dropWhile isBracket).reverse

def isLoopbackHost (host : String) : Bool :=
  eqIgnoreAsciiCase host "localhost" ||
    (Text.rsplitOnce '.' host.toList).any (fun parts =>
      eqIgnoreAsciiCase (String.ofList parts.2) "localhost") ||
    (hostAsIp host).any Url.IpAddr.isLoopback

def matchesPackageUrlShape (url : Url.Record) : Bool :=
  url.port.isNone && (hostAsIp url.host).isNone &&
    !isLoopbackHost url.host && url.host != ""

def validHost (value : String) (allowLocal : Bool) : Bool :=
  value != "" && decide (value.utf8ByteSize ≤ maxHostBytes) &&
    !hasSpaceOrControl value &&
    !value.toList.any (fun char => char == '/' || char == '@' ||
      char == '?' || char == '#' || char == ':') &&
    (allowLocal || ((hostAsIp value).isNone && !isLoopbackHost value))

/-- No host of the list repeats an earlier one. -/
def distinctHosts : List String → List String → Bool
  | [], _ => true
  | host :: rest, earlier =>
      earlier.all (fun other => !eqIgnoreAsciiCase host other) &&
        distinctHosts rest (earlier ++ [host])

/-! ## Sources -/

section Validity

variable (parseHost : List Char → Option String)

def validUpstreamUrl (value : String) (allowHttp : Bool) :
    Option Url.Record :=
  if value = "" ∨ value.utf8ByteSize > maxUrlBytes ∨ '#' ∈ value.toList ∨
      hasSpaceOrControl value then
    none
  else
    (Url.readUrl parseHost value).filter fun url =>
      let localHttp :=
        url.scheme == "http" && allowHttp && isLoopbackHost url.host
      (url.scheme == "https" || localHttp) &&
        (localHttp || matchesPackageUrlShape url) &&
        url.username.isEmpty && url.password.isNone && !url.hasFragment

def cleanBaseUrl (value : String) (allowHttp : Bool) : Bool :=
  !value.toList.contains '?' &&
    (validUpstreamUrl parseHost value allowHttp).any fun url => !url.hasQuery

/-- The authority as the validator finds it, which is not always the one of
the URL parser. -/
def scannedAuthority (template : String) : Option (List Char) :=
  (Text.behindFirst "://".toList template.toList).map fun rest =>
    rest.takeWhile fun char => !(char == '/' || char == '?' || char == '#')

def hasBrace (text : List Char) : Bool :=
  text.any fun char => char == '{' || char == '}'

def validTemplate (template : String) (allowHttp : Bool) : Bool :=
  let hostHasToken := (scannedAuthority template).any hasBrace
  if hostHasToken || !(["{z}", "{x}", "{y}"].all fun token =>
      Text.countFrom token.toList 0 template.toList == 1) then
    false
  else
    let expanded := Text.replace (Text.replace (Text.replace template
      "{z}" "0") "{x}" "0") "{y}" "0"
    !hasBrace expanded.toList &&
      (validUpstreamUrl parseHost expanded allowHttp).isSome

def validUpstream (upstream : UpstreamTemplate) (allowHttp : Bool) : Bool :=
  match upstream with
  | .xyz urlTemplate | .wmts urlTemplate =>
      validTemplate parseHost urlTemplate allowHttp
  | .wms base layers styles version format _ =>
      cleanBaseUrl parseHost base allowHttp &&
        validQueryValue layers maxWmsLayerBytes false &&
        validQueryValue styles maxWmsStyleBytes true &&
        version == "1.3.0" &&
        validQueryValue format maxWmsFormatBytes false
  | .arcgis base => cleanBaseUrl parseHost base allowHttp
  | .style styleUrl allowedHosts =>
      (validUpstreamUrl parseHost styleUrl allowHttp).any fun url =>
        !allowedHosts.isEmpty &&
          decide (allowedHosts.length ≤ maxAllowedHosts) &&
          allowedHosts.all (fun host => validHost host allowHttp) &&
          distinctHosts allowedHosts [] &&
          allowedHosts.any fun host => eqIgnoreAsciiCase host url.host

def isValid (source : ChartSource) (allowHttp : Bool) : Bool :=
  if !Style.validSourceId source.id ||
      !validBoundedText source.title maxTitleBytes false ||
      !validBoundedText source.attribution maxAttributionBytes true ||
      !(source.tileSize == 256 || source.tileSize == 512) ||
      decide (source.minzoom > source.maxzoom) ||
      decide (source.maxzoom > 24) ||
      source.vectorMaxzoom.any (fun zoom =>
        decide (zoom < source.minzoom) || decide (zoom > source.maxzoom)) ||
      source.maxAgeSeconds == some 0 ||
      source.bounds.any (fun bbox => !validSourceBbox bbox) ||
      source.coverage.any (fun coverage =>
        coverage.isEmpty || decide (coverage.length > maxCoverageBoxes) ||
          coverage.any fun bbox => !validSourceBbox bbox) then
    false
  else
    validUpstream parseHost source.upstream allowHttp

variable {parseHost} {source : ChartSource} {allowHttp : Bool}

/-- The zooms of a valid source. -/
theorem zooms_of_isValid (valid : isValid parseHost source allowHttp = true) :
    source.minzoom ≤ source.maxzoom ∧ source.maxzoom ≤ 24 := by
  unfold isValid at valid
  split at valid
  · contradiction
  · next accepted =>
    simp only [Bool.or_eq_true, not_or, decide_eq_true_eq, not_lt]
      at accepted
    obtain ⟨⟨⟨⟨⟨⟨_, ordered⟩, bounded⟩, _⟩, _⟩, _⟩, _⟩ := accepted
    exact ⟨ordered, bounded⟩

end Validity

end ChartLocker.Config
