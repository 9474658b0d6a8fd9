import ChartLocker.Library.UrlPath
import ChartLocker.Warm.Snapshots

/-!
# The targets of the container proxy

`validatedContainerTarget` lets a request URL through to the container when
no segment of its path is unsafe.  A segment is decoded up to four times, and
one which still changes or cannot be decoded is unsafe.

What passes is therefore safe however often it is decoded, and the path which
`fetch` makes of it stays below the directory of its route.
-/

namespace ChartLocker.Plugin.ContainerTargets

open Library Text Url
open Warm (controlCharacter)

def backslash : Char := Char.ofNat 0x5c

def hasUnsafePathSyntax (value : List Char) : Bool :=
  value == ".".toList || value == "..".toList || value.contains '/' ||
    value.contains backslash || value.any controlCharacter

/-- The loop of `unsafePathSegment` with as many decodings to go. -/
def unsafeWithin : Nat → List Char → Bool
  | 0, value => hasUnsafePathSyntax value || value.contains '%'
  | depth + 1, value =>
      if hasUnsafePathSyntax value then
        true
      else
        match decodeURIComponent value with
        | none => true
        | some decoded =>
            if decoded = value then false else unsafeWithin depth decoded

def unsafePathSegment (raw : List Char) : Bool :=
  unsafeWithin 4 raw

inductive ContainerPrefix where
  | tile
  | style
deriving DecidableEq, Repr

def ContainerPrefix.directory : ContainerPrefix → List Char
  | .tile => "tile".toList
  | .style => "style".toList

def ContainerPrefix.text (required : ContainerPrefix) : List Char :=
  '/' :: (required.directory ++ ['/'])

/-- The path of a request URL in front of its query. -/
def rawPath (rawUrl : List Char) : List Char :=
  rawUrl.takeWhile (· != '?')

def validatedContainerTarget (rawUrl : List Char)
    (required : ContainerPrefix) : Option (List Char) :=
  if rawUrl.contains '#' || rawUrl.any controlCharacter then
    none
  else if !required.text.isPrefixOf (rawPath rawUrl) ||
      ((rawPath rawUrl).splitOn '/').any unsafePathSegment then
    none
  else
    some rawUrl

/-! ## Segments -/

/-- What the syntax check excludes. -/
structure Harmless (value : List Char) : Prop where
  notSelf : value ≠ ".".toList
  notParent : value ≠ "..".toList
  noSlash : '/' ∉ value
  noBackslash : backslash ∉ value
  noControl : ∀ char ∈ value, controlCharacter char = false

variable {value raw : List Char}

theorem harmless_iff :
    hasUnsafePathSyntax value = false ↔ Harmless value := by
  unfold hasUnsafePathSyntax
  simp only [Bool.or_eq_false_iff, beq_eq_false_iff_ne,
    List.contains_eq_mem, decide_eq_false_iff_not, List.any_eq_false,
    Bool.not_eq_true]
  constructor
  · intro checks
    obtain ⟨⟨⟨⟨self, parent⟩, slash⟩, back⟩, control⟩ := checks
    exact ⟨self, parent, slash, back, control⟩
  · intro harmless
    exact ⟨⟨⟨⟨harmless.notSelf, harmless.notParent⟩, harmless.noSlash⟩,
      harmless.noBackslash⟩, harmless.noControl⟩

/-- Whatever the depth, a segment which passes has a value after any number
of decodings, and each of these values is harmless. -/
theorem decodeTimes_of_unsafeWithin {depth : Nat}
    (passed : unsafeWithin depth value = false) (times : Nat) :
    ∃ decoded, decodeTimes times value = some decoded ∧ Harmless decoded := by
  induction depth generalizing value times with
  | zero =>
      obtain ⟨safe, settled⟩ := Bool.or_eq_false_iff.mp passed
      have plain : '%' ∉ value := by
        simpa using settled
      exact ⟨value, decodeTimes_of_fixed (decode_of_plain plain) times,
        harmless_iff.mp safe⟩
  | succ depth induction =>
      rw [unsafeWithin] at passed
      split at passed
      · contradiction
      · next safe =>
          have harmless : Harmless value :=
            harmless_iff.mp (Bool.eq_false_iff.mpr safe)
          split at passed
          · contradiction
          · next decoded once =>
              split at passed
              · next fixed =>
                  rw [fixed] at once
                  exact ⟨value, decodeTimes_of_fixed once times, harmless⟩
              · cases times with
                | zero => exact ⟨value, rfl, harmless⟩
                | succ times =>
                    rw [decodeTimes, once, Option.bind_some]
                    exact induction passed times

/-- A dot segment becomes one of the excluded texts by one decoding. -/
theorem undotted_of_passed (passed : unsafePathSegment raw = false) :
    raw ∉ singleDots ∧ raw ∉ doubleDots := by
  obtain ⟨decoded, once, harmless⟩ := decodeTimes_of_unsafeWithin passed 1
  have single : ∀ segment ∈ singleDots,
      decodeTimes 1 segment = some ".".toList := by decide +kernel
  have double : ∀ segment ∈ doubleDots,
      decodeTimes 1 segment = some "..".toList := by decide +kernel
  constructor
  · intro member
    rw [single raw member] at once
    exact harmless.notSelf (Option.some.inj once).symm
  · intro member
    rw [double raw member] at once
    exact harmless.notParent (Option.some.inj once).symm

/-! ## Targets -/

/-- The host and port at which the container listens. -/
structure ContainerAddress where
  text : List Char
  nonempty : text ≠ []
  plain : ∀ char ∈ text, 0x20 < char.toNat ∧ endsAuthority char = false

/-- The URL which the proxy fetches. -/
def fetchUrl (address : ContainerAddress) (target : List Char) : List Char :=
  "http://".toList ++ (address.text ++ target)

/-- What is known of a target which is let through. -/
structure Validated (target : List Char) (required : ContainerPrefix) :
    Prop where
  noFragment : '#' ∉ target
  printable : ∀ char ∈ target, controlCharacter char = false
  required : required.text <+: rawPath target
  passed : ∀ segment ∈ (rawPath target).splitOn '/',
    unsafePathSegment segment = false

variable {rawUrl target : List Char} {required : ContainerPrefix}

theorem validated_of_accepted
    (accepted : validatedContainerTarget rawUrl required = some target) :
    target = rawUrl ∧ Validated target required := by
  unfold validatedContainerTarget at accepted
  split at accepted
  · contradiction
  · next clean =>
      split at accepted
      · contradiction
      · next kept =>
          cases accepted
          have free := Bool.or_eq_false_iff.mp (Bool.eq_false_iff.mpr clean)
          have within := Bool.or_eq_false_iff.mp (Bool.eq_false_iff.mpr kept)
          refine ⟨rfl, ?_, ?_, ?_, ?_⟩
          · simpa using free.1
          · simpa using free.2
          · exact List.isPrefixOf_iff_prefix.mp (by simpa using within.1)
          · simpa using within.2

theorem Validated.backslash_notMem (valid : Validated target required) :
    backslash ∉ rawPath target := by
  intro member
  obtain ⟨segment, part, inside⟩ :=
    exists_mem_splitOn member (by decide : backslash ≠ '/')
  obtain ⟨decoded, once, harmless⟩ :=
    decodeTimes_of_unsafeWithin (valid.passed segment part) 0
  cases once
  exact harmless.noBackslash inside

/-- A URL parser leaves the path of a validated target below the required
directory. -/
theorem Validated.prefix_pathOf (valid : Validated target required) :
    required.text <+: pathOf target := by
  obtain ⟨rest, whole⟩ := valid.required
  have path : rawPath target =
      '/' :: (required.directory ++ '/' :: rest) := by
    rw [← whole, ContainerPrefix.text, List.cons_append, List.append_assoc,
      List.singleton_append]
  have segments : (rawPath target).splitOn '/' =
      [] :: (required.directory ++ '/' :: rest).splitOn '/' := by
    rw [path]
    exact List.splitOn_append_cons_self [] _
  apply directory_prefix_pathOf ((takeWhile_of_noFragment
    valid.noFragment).trans path)
  · intro char member
    have plain : required.directory.all
        (fun char => !pathEncoded char && char != '/') = true := by
      cases required <;> decide
    simpa using List.all_eq_true.mp plain char member
  · intro member
    apply valid.backslash_notMem
    rw [path]
    exact List.mem_cons_of_mem _ member
  · intro segment member
    apply undotted_of_passed
    apply valid.passed
    rw [segments]
    exact List.mem_cons_of_mem _ member

theorem Validated.exists_slash (valid : Validated target required) :
    ∃ rest, target = '/' :: rest := by
  obtain ⟨rest, whole⟩ := valid.required.trans
    (List.takeWhile_prefix (· != '?'))
  exact ⟨_, whole.symm⟩

/-- Only characters above the space are left in a target without one. -/
theorem Validated.above_space (valid : Validated target required)
    (noSpace : ' ' ∉ target) {char : Char} (member : char ∈ target) :
    0x20 < char.toNat := by
  have printable := valid.printable char member
  have different : char.toNat ≠ 0x20 := by
    intro same
    apply noSpace
    have : char = ' ' := Char.toNat_inj.mp same
    rwa [← this]
  unfold controlCharacter at printable
  simp only [Bool.or_eq_false_iff, decide_eq_false_iff_not] at printable
  omega

/-- A target which is let through is harmless in every segment however often
a server decodes it, and what `fetch` asks for lies below the directory of the
route.  A parser would strip a space at the end of a URL, but the target of a
request line ends in front of the first space. -/
theorem target_contained
    (accepted : validatedContainerTarget rawUrl required = some target) :
    (∀ segment ∈ (rawPath target).splitOn '/', ∀ times : Nat,
      ∃ value, decodeTimes times segment = some value ∧ Harmless value) ∧
    ∀ address : ContainerAddress, ' ' ∉ rawUrl →
      ∃ path, pathname (fetchUrl address target) = some path ∧
        required.text <+: path := by
  obtain ⟨rfl, valid⟩ := validated_of_accepted accepted
  constructor
  · intro segment member times
    exact decodeTimes_of_unsafeWithin (valid.passed segment member) times
  · intro address noSpace
    refine ⟨pathOf target, ?_, valid.prefix_pathOf⟩
    obtain ⟨rest, rfl⟩ := valid.exists_slash
    apply pathname_append
    · intro char member
      rcases List.mem_append.mp member with scheme | member
      · have above : "http://".toList.all
            (fun char => decide (0x20 < char.toNat)) = true := by decide
        simpa using List.all_eq_true.mp above char scheme
      · rcases List.mem_append.mp member with inside | inside
        · exact (address.plain char inside).1
        · exact valid.above_space noSpace inside
    · exact address.nonempty
    · intro char member
      exact (address.plain char member).2

def chartAddress : ContainerAddress where
  text := "chart:3000".toList
  nonempty := by decide
  plain := by
    have checked : "chart:3000".toList.all (fun char =>
        decide (0x20 < char.toNat) && !endsAuthority char) = true := by
      decide
    intro char member
    simpa using List.all_eq_true.mp checked char member

def encodedTarget : List Char := "/style/depth/%252561?v=%2e".toList

theorem target_contained_of_encoded :
    (∀ segment ∈ (rawPath encodedTarget).splitOn '/', ∀ times : Nat,
      ∃ value, decodeTimes times segment = some value ∧ Harmless value) ∧
    ∃ path, pathname (fetchUrl chartAddress encodedTarget) = some path ∧
      ContainerPrefix.style.text <+: path := by
  have accepted : validatedContainerTarget encodedTarget .style =
      some encodedTarget := by decide +kernel
  have contained := target_contained accepted
  exact ⟨contained.1, contained.2 chartAddress (by decide)⟩

example : validatedContainerTarget "/tile/a/%252525252e".toList .tile =
    none := by decide +kernel

end ChartLocker.Plugin.ContainerTargets
