import ChartLocker.Library.Trimming
import ChartLocker.Library.Url

/-!
# Paths of URLs

Percent-decoding as `decodeURIComponent` does it, and the path which a URL
parser makes of an `http` or `https` URL: it resolves the dot segments, which
may also be written with `%2e`, takes a backslash for a slash, and encodes
what may not stand in a path.
-/

namespace Library.Url

open Text

/-! ## Percent-decoding -/

/-- The byte of an escape and the text behind the escape. -/
def escape : List Char → Option (Nat × List Char)
  | '%' :: high :: low :: rest =>
      (hexValue high).bind fun upper =>
        (hexValue low).map fun lower => (upper * 16 + lower, rest)
  | _ => none

/-- The escapes of as many continuation bytes of UTF-8. -/
def continuations : Nat → Nat → List Char → Option (Nat × List Char)
  | 0, value, text => some (value, text)
  | count + 1, value, text =>
      (escape text).bind fun read =>
        if 0x80 ≤ read.1 ∧ read.1 < 0xc0 then
          continuations count (value * 64 + (read.1 - 0x80)) read.2
        else
          none

/-- How many continuation bytes follow a leading byte, the bits which it
gives to the code point, and the least code point which needs them. -/
def leadingByte (byte : Nat) : Option (Nat × Nat × Nat) :=
  if byte < 0x80 then some (0, byte, 0)
  else if 0xc0 ≤ byte ∧ byte < 0xe0 then some (1, byte - 0xc0, 0x80)
  else if 0xe0 ≤ byte ∧ byte < 0xf0 then some (2, byte - 0xe0, 0x800)
  else if 0xf0 ≤ byte ∧ byte < 0xf8 then some (3, byte - 0xf0, 0x10000)
  else none

/-- The character which the escapes at the front of a text encode, and the
text behind them. -/
def escapedCharacter (text : List Char) : Option (Char × List Char) :=
  (escape text).bind fun lead =>
    (leadingByte lead.1).bind fun shape =>
      (continuations shape.1 shape.2.1 lead.2).bind fun read =>
        if shape.2.2 ≤ read.1 ∧ read.1.isValidChar then
          some (Char.ofNat read.1, read.2)
        else
          none

/-- Decodes behind as many characters, which an escape before has used up. -/
def decodeFrom : Nat → List Char → Option (List Char)
  | _, [] => some []
  | used + 1, _ :: rest => decodeFrom used rest
  | 0, head :: rest =>
      if head = '%' then
        (escapedCharacter (head :: rest)).bind fun read =>
          (decodeFrom (rest.length - read.2.length) rest).map (read.1 :: ·)
      else
        (decodeFrom 0 rest).map (head :: ·)

/-- `decodeURIComponent`, without a value where it throws. -/
def decodeURIComponent (text : List Char) : Option (List Char) :=
  decodeFrom 0 text

def decodeTimes : Nat → List Char → Option (List Char)
  | 0, text => some text
  | times + 1, text => (decodeURIComponent text).bind (decodeTimes times)

section Decoding

variable {text : List Char}

theorem decode_of_plain (plain : '%' ∉ text) :
    decodeURIComponent text = some text := by
  induction text with
  | nil => rfl
  | cons head rest induction =>
      have different : head ≠ '%' :=
        fun same => plain (same ▸ List.mem_cons_self)
      have later := induction fun member =>
        plain (List.mem_cons_of_mem _ member)
      unfold decodeURIComponent at later ⊢
      rw [decodeFrom, if_neg different, later, Option.map_some]

theorem decodeTimes_of_fixed (fixed : decodeURIComponent text = some text)
    (times : Nat) : decodeTimes times text = some text := by
  induction times with
  | zero => rfl
  | succ times induction =>
      rw [decodeTimes, fixed, Option.bind_some, induction]

end Decoding

example : decodeURIComponent "%e2%9a%93%252e".toList =
    some "⚓%2e".toList := by decide +kernel

example : decodeURIComponent "%c0%ae".toList = none := by decide +kernel

/-! ## The path of a URL -/

/-- The code points which a parser encodes in a path. -/
def pathEncoded (char : Char) : Bool :=
  decide (char.toNat < 0x21) || decide (0x7e < char.toNat) ||
    "\"#<>?^\x60\x7b\x7d".toList.contains char

def upperHex (digit : Nat) : Char :=
  "0123456789ABCDEF".toList.getD digit '0'

def percentEncode (char : Char) : List Char :=
  if pathEncoded char then
    (String.utf8EncodeChar char).flatMap fun byte =>
      ['%', upperHex (byte.toNat / 16), upperHex (byte.toNat % 16)]
  else
    [char]

def encodeSegment (segment : List Char) : List Char :=
  segment.flatMap percentEncode

/-- The ways to write the segment of the directory itself. -/
def singleDots : List (List Char) :=
  [".".toList, "%2e".toList, "%2E".toList]

/-- The ways to write the segment of the directory above. -/
def doubleDots : List (List Char) :=
  singleDots.flatMap fun first => singleDots.map fun second => first ++ second

/-- The segments of a path behind those which are already resolved.  A path
which ends in a dot segment ends in an empty one afterwards. -/
def resolve (resolved : List (List Char)) :
    List (List Char) → List (List Char)
  | [] => resolved
  | segment :: rest =>
      let ending : List (List Char) := if rest = [] then [[]] else []
      if segment ∈ doubleDots then
        resolve (resolved.dropLast ++ ending) rest
      else if segment ∈ singleDots then
        resolve (resolved ++ ending) rest
      else
        resolve (resolved ++ [encodeSegment segment]) rest

/-- The path of what follows the authority. -/
def pathOf (text : List Char) : List Char :=
  let slashes := (text.takeWhile fun char => char != '?' && char != '#').map
    fun char => if isSlash char then '/' else char
  let behind :=
    if slashes.head? = some '/' then slashes.drop 1 else slashes
  '/' :: ['/'].intercalate (resolve [] (behind.splitOn '/'))

/-- A parser strips the controls and spaces around a URL and removes the tabs
and newlines in it. -/
def strip (text : List Char) : List Char :=
  (Trimming.trimBy (fun char => decide (char.toNat ≤ 0x20)) text).filter
    fun char => char != '\t' && char != '\n' && char != '\r'

/-- The path of an absolute URL. -/
def pathname (text : List Char) : Option (List Char) :=
  (splitOnce ':' (strip text)).map fun parts =>
    pathOf (afterAuthority parts.2)

example : pathname "http://chart:1/tile/a/%2E%2e/..\\é?x".toList =
    some "/%C3%A9".toList := by decide +kernel

section Paths

variable {text segment : List Char} {resolved segments : List (List Char)}

theorem encodeSegment_of_plain
    (plain : ∀ char ∈ segment, pathEncoded char = false) :
    encodeSegment segment = segment := by
  induction segment with
  | nil => rfl
  | cons head rest induction =>
      have first : percentEncode head = [head] := by
        rw [percentEncode, plain head List.mem_cons_self]
        exact if_neg Bool.false_ne_true
      have later := induction fun char member =>
        plain char (List.mem_cons_of_mem _ member)
      unfold encodeSegment at later ⊢
      rw [List.flatMap_cons, first, later, List.singleton_append]

/-- Without a dot segment every segment stays where it is. -/
theorem resolve_of_undotted
    (undotted : ∀ segment ∈ segments,
      segment ∉ singleDots ∧ segment ∉ doubleDots) :
    resolve resolved segments = resolved ++ segments.map encodeSegment := by
  induction segments generalizing resolved with
  | nil => rw [resolve, List.map_nil, List.append_nil]
  | cons segment rest induction =>
      obtain ⟨single, double⟩ := undotted segment List.mem_cons_self
      rw [resolve, if_neg double, if_neg single,
        induction fun other member =>
          undotted other (List.mem_cons_of_mem _ member),
        List.append_assoc, List.singleton_append, List.map_cons]

/-- Without a fragment the path ends at the query. -/
theorem takeWhile_of_noFragment (free : '#' ∉ text) :
    (text.takeWhile fun char => char != '?' && char != '#') =
      text.takeWhile (· != '?') := by
  induction text with
  | nil => rfl
  | cons head rest induction =>
      have different : (head != '#') = true :=
        bne_iff_ne.mpr fun same => free (same ▸ List.mem_cons_self)
      have later := induction fun member =>
        free (List.mem_cons_of_mem _ member)
      rw [List.takeWhile_cons, List.takeWhile_cons, different, Bool.and_true,
        later]

/-- A path without backslashes and dot segments is only encoded. -/
theorem pathOf_of_undotted {rest : List Char}
    (path : (text.takeWhile fun char => char != '?' && char != '#') =
      '/' :: rest)
    (forward : Char.ofNat 0x5c ∉ rest)
    (undotted : ∀ segment ∈ rest.splitOn '/',
      segment ∉ singleDots ∧ segment ∉ doubleDots) :
    pathOf text =
      '/' :: ['/'].intercalate ((rest.splitOn '/').map encodeSegment) := by
  have same : (rest.map fun char => if isSlash char then '/' else char) =
      rest := by
    conv_rhs => rw [← List.map_id rest]
    apply List.map_congr_left
    intro char member
    split
    · next slash =>
        rcases Bool.or_eq_true_iff.mp slash with forwards | backwards
        · exact (beq_iff_eq.mp forwards).symm
        · exact absurd (beq_iff_eq.mp backwards ▸ member) forward
    · rfl
  have slash : (if isSlash '/' then '/' else '/') = '/' := rfl
  unfold pathOf
  rw [path, List.map_cons, slash, same]
  dsimp only
  rw [List.head?_cons, if_pos rfl, List.drop_one, List.tail_cons,
    resolve_of_undotted undotted, List.nil_append]

/-- Such a path stays in its first directory. -/
theorem directory_prefix_pathOf {directory rest : List Char}
    (path : (text.takeWhile fun char => char != '?' && char != '#') =
      '/' :: (directory ++ '/' :: rest))
    (plain : ∀ char ∈ directory, pathEncoded char = false ∧ char ≠ '/')
    (forward : Char.ofNat 0x5c ∉ directory ++ '/' :: rest)
    (undotted : ∀ segment ∈ (directory ++ '/' :: rest).splitOn '/',
      segment ∉ singleDots ∧ segment ∉ doubleDots) :
    '/' :: (directory ++ ['/']) <+: pathOf text := by
  have first : directory.splitOn '/' = [directory] :=
    List.splitOn_eq_singleton fun member => (plain '/' member).2 rfl
  have kept : encodeSegment directory = directory :=
    encodeSegment_of_plain fun char member => (plain char member).1
  have nonempty : (rest.splitOn '/').map encodeSegment ≠ [] := by
    rw [ne_eq, List.map_eq_nil_iff]
    exact List.splitOn_ne_nil '/' rest
  rw [pathOf_of_undotted path forward undotted,
    List.splitOn_append_cons_self, first, List.singleton_append,
    List.map_cons, kept, List.intercalate_cons_of_ne_nil nonempty]
  apply List.cons_prefix_cons.mpr
  exact ⟨rfl, List.prefix_append _ _⟩

end Paths

section Absolute

variable {text authority : List Char}

/-- A text of printable characters is read as it stands. -/
theorem strip_of_printable (printable : ∀ char ∈ text, 0x20 < char.toNat) :
    strip text = text := by
  have bare : Trimming.Bare (fun char => decide (char.toNat ≤ 0x20)) text :=
    Trimming.bare_of_forall fun char member =>
      decide_eq_false (Nat.not_le.mpr (printable char member))
  unfold strip
  rw [Trimming.trimBy_of_bare bare]
  apply List.filter_eq_self.mpr
  intro char member
  have above := printable char member
  have differs : ∀ other : Char, other.toNat ≤ 0x20 →
      (char != other) = true := by
    intro other low
    apply bne_iff_ne.mpr
    intro same
    rw [same] at above
    omega
  rw [differs '\t' (by decide), differs '\n' (by decide),
    differs '\r' (by decide)]
  rfl

/-- The path of a URL is the one of what follows its authority. -/
theorem pathname_append {rest : List Char}
    (printable : ∀ char ∈ "http://".toList ++ (authority ++ '/' :: rest),
      0x20 < char.toNat)
    (nonempty : authority ≠ [])
    (plain : ∀ char ∈ authority, endsAuthority char = false) :
    pathname ("http://".toList ++ (authority ++ '/' :: rest)) =
      some (pathOf ('/' :: rest)) := by
  have free : ':' ∉ "http".toList := by decide
  have split : splitOnce ':' ("http://".toList ++ (authority ++ '/' :: rest)) =
      some ("http".toList, "//".toList ++ (authority ++ '/' :: rest)) :=
    splitOnce_append free
  have slashes : ("//".toList ++ (authority ++ '/' :: rest)).dropWhile isSlash =
      authority ++ '/' :: rest := by
    have all : "//".toList.all isSlash = true := by decide
    rw [List.dropWhile_append_of_pos (List.all_eq_true.mp all)]
    cases authority with
    | nil => exact absurd rfl nonempty
    | cons head tail =>
        apply List.dropWhile_cons_of_neg
        intro slash
        have ends := plain head List.mem_cons_self
        rw [endsAuthority, slash] at ends
        contradiction
  have behind : (authority ++ '/' :: rest).dropWhile
      (fun char => !endsAuthority char) = '/' :: rest := by
    have inside : ∀ char ∈ authority, (!endsAuthority char) = true := by
      intro char member
      rw [plain char member]
      rfl
    rw [List.dropWhile_append_of_pos inside]
    exact List.dropWhile_cons_of_neg (by decide)
  unfold pathname
  rw [strip_of_printable printable, split, Option.map_some, afterAuthority,
    slashes, behind]

end Absolute

end Library.Url
