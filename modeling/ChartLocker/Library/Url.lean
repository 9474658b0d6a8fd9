import ChartLocker.Library.Placeholder
import Mathlib.Data.List.TakeWhile

/-!
# URLs

How a URL parser finds the parts of an `http` or `https` URL which has
neither white space nor control characters.  The slashes and backslashes
behind the scheme are skipped however many they are, the authority ends at
the next slash, backslash, question mark or hash, and the host stands in it
behind the last at sign and before the first colon outside of brackets.
Whether a text is a host, and how that host is written in the end, is a
parameter.
-/

namespace Library.Url

open Text Placeholder

/-! ## Addresses -/

inductive IpAddr where
  | v4 (octets : List Nat)
  | v6 (groups : List Nat)
deriving DecidableEq

def octet (text : List Char) : Option Nat :=
  if text ≠ [] ∧ text.length ≤ 3 ∧ text.all Char.isDigit ∧
      (text.head? = some '0' → text.length = 1) then
    let value := Nat.ofDigitChars 10 text 0
    if value ≤ 255 then some value else none
  else
    none

def parseIpv4 (text : List Char) : Option (List Nat) :=
  if (text.splitOn '.').length = 4 then (text.splitOn '.').mapM octet else none

def hexValue (char : Char) : Option Nat :=
  if char.isDigit then
    some (char.toNat - 48)
  else if 'a' ≤ char.toLower ∧ char.toLower ≤ 'f' then
    some (char.toLower.toNat - 87)
  else
    none

def hexGroup (text : List Char) : Option Nat :=
  if text ≠ [] ∧ text.length ≤ 4 then
    (text.mapM hexValue).map fun values =>
      values.foldl (fun number value => number * 16 + value) 0
  else
    none

/-- Groups between colons, the last of which may be written as an IPv4
address. -/
def hexGroups (dotted : Bool) : List (List Char) → Option (List Nat)
  | [] => some []
  | [last] =>
      match dotted, parseIpv4 last with
      | true, some [first, second, third, fourth] =>
          some [first * 256 + second, third * 256 + fourth]
      | _, _ => (hexGroup last).map ([·])
  | head :: tail =>
      (hexGroup head).bind fun group =>
        (hexGroups dotted tail).map (group :: ·)

def groupsOf (dotted : Bool) (text : List Char) : Option (List Nat) :=
  if text = [] then some [] else hexGroups dotted (text.splitOn ':')

/-- The parts before and behind the first double colon. -/
def splitDoubleColon : List Char → Option (List Char × List Char)
  | ':' :: ':' :: rest => some ([], rest)
  | head :: rest =>
      (splitDoubleColon rest).map fun parts => (head :: parts.1, parts.2)
  | [] => none

def parseIpv6 (text : List Char) : Option (List Nat) :=
  match splitDoubleColon text with
  | none =>
      (groupsOf true text).bind fun groups =>
        if groups.length = 8 then some groups else none
  | some (before, after) =>
      (groupsOf false before).bind fun front =>
        (groupsOf true after).bind fun back =>
          if front.length + back.length ≤ 7 then
            some (front ++ List.replicate (8 - front.length - back.length) 0 ++
              back)
          else
            none

def parseIpAddr (text : List Char) : Option IpAddr :=
  match parseIpv4 text with
  | some octets => some (.v4 octets)
  | none => (parseIpv6 text).map .v6

def IpAddr.isLoopback : IpAddr → Bool
  | .v4 octets => octets.head? == some 127
  | .v6 groups => groups == [0, 0, 0, 0, 0, 0, 0, 1]

example : parseIpAddr "::ffff:10.0.0.1".toList =
    some (.v6 [0, 0, 0, 0, 0, 0xffff, 0xa00, 1]) := by decide +kernel

/-! ## The parts of a URL -/

def isSlash (char : Char) : Bool :=
  char == '/' || char == Char.ofNat 0x5c

def endsAuthority (char : Char) : Bool :=
  isSlash char || char == '?' || char == '#'

/-- The host and, behind a colon, the port.  A colon between brackets belongs
to the host. -/
def splitHost (inside : Bool) : List Char → List Char × Option (List Char)
  | [] => ([], none)
  | head :: tail =>
      if head = ':' ∧ inside = false then
        ([], some tail)
      else
        let parts := splitHost (head == '[' || (head != ']' && inside)) tail
        (head :: parts.1, parts.2)

structure Authority where
  userinfo : List Char
  host : List Char
  port : Option (List Char)

def splitAuthority (text : List Char) : Authority :=
  let parts := (rsplitOnce '@' text).getD ([], text)
  let rest := splitHost false parts.2
  { userinfo := parts.1
    host := rest.1
    port := rest.2 }

/-- The authority of what follows the colon of the scheme. -/
def authorityOf (rest : List Char) : Authority :=
  splitAuthority
    ((rest.dropWhile isSlash).takeWhile fun char => !endsAuthority char)

/-- What follows the authority. -/
def afterAuthority (rest : List Char) : List Char :=
  (rest.dropWhile isSlash).dropWhile fun char => !endsAuthority char

def defaultPort (scheme : String) : Option Nat :=
  if scheme = "https" then some 443
  else if scheme = "http" then some 80
  else none

/-- The port, which is not kept when it is the default of the scheme. -/
def readPort (standard : Nat) (text : List Char) : Option (Option Nat) :=
  let value := Nat.ofDigitChars 10 text 0
  if text.all Char.isDigit ∧ value ≤ 65535 then
    some (if text = [] ∨ value = standard then none else some value)
  else
    none

structure Record where
  scheme : String
  username : List Char
  password : Option (List Char)
  host : String
  port : Option Nat
  hasQuery : Bool
  hasFragment : Bool
deriving DecidableEq

section Read

variable (parseHost : List Char → Option String)

def readUrl (text : String) : Option Record :=
  (splitOnce ':' text.toList).bind fun parts =>
    let scheme := String.ofList (parts.1.map Char.toLower)
    let authority := authorityOf parts.2
    let userinfo := (splitOnce ':' authority.userinfo).getD
      (authority.userinfo, [])
    let resource := (afterAuthority parts.2).takeWhile (· != '#')
    (defaultPort scheme).bind fun standard =>
    (if authority.host = [] then none else parseHost authority.host).bind
      fun host =>
    (readPort standard (authority.port.getD [])).map fun port =>
      { scheme := scheme
        username := userinfo.1
        password := if userinfo.2 = [] then none else some userinfo.2
        host := host
        port := port
        hasQuery := resource.contains '?'
        hasFragment := (afterAuthority parts.2).contains '#' }

/-- The text in which the parser looks for the host. -/
def hostText (text : List Char) : List Char :=
  ((splitOnce ':' text).map fun parts => (authorityOf parts.2).host).getD []

variable {parseHost}

theorem parseHost_hostText {text : String} {url : Record}
    (read : readUrl parseHost text = some url) :
    parseHost (hostText text.toList) = some url.host := by
  unfold readUrl at read
  obtain ⟨parts, split, read⟩ := Option.bind_eq_some_iff.mp read
  obtain ⟨standard, _, read⟩ := Option.bind_eq_some_iff.mp read
  obtain ⟨host, parsed, read⟩ := Option.bind_eq_some_iff.mp read
  obtain ⟨port, _, rfl⟩ := Option.map_eq_some_iff.mp read
  unfold hostText
  rw [split, Option.map_some, Option.getD_some]
  split at parsed
  · contradiction
  · exact parsed

end Read

/-- Characters which are neither colons nor brackets belong to the host. -/
theorem splitHost_append {inside : Bool} {before rest : List Char}
    (plain : ∀ char ∈ before, char ≠ ':' ∧ char ≠ '[' ∧ char ≠ ']') :
    splitHost inside (before ++ rest) =
      (before ++ (splitHost inside rest).1, (splitHost inside rest).2) := by
  induction before with
  | nil => rfl
  | cons head tail induction =>
      obtain ⟨colon, opening, closing⟩ := plain head List.mem_cons_self
      have same : (head == '[' || (head != ']' && inside)) = inside := by
        rw [beq_eq_false_iff_ne.mpr opening, bne_iff_ne.mpr closing,
          Bool.false_or, Bool.true_and]
      rw [List.cons_append, splitHost, if_neg fun both => colon both.1, same,
        induction fun char member =>
        plain char (List.mem_cons_of_mem _ member)]
      rfl

theorem splitHost_prefix {inside : Bool} {text : List Char} :
    (splitHost inside text).1 <+: text := by
  induction text generalizing inside with
  | nil => exact List.prefix_rfl
  | cons head tail induction =>
      rw [splitHost]
      split
      · exact List.nil_prefix
      · exact List.cons_prefix_cons.mpr ⟨rfl, induction⟩

/-! ## Filled texts -/

/-- A character which filling neither removes nor brings about. -/
structure IsDelimiter (value : Char → Option Nat) (char : Char) : Prop where
  opens : char ≠ '{'
  closes : char ≠ '}'
  noDigit : char.isDigit = false
  unnamed : value char = none

section Fill

variable {value : Char → Option Nat} {delimiter : Char} {text : List Char}

theorem IsDelimiter.fill_cons (plain : IsDelimiter value delimiter) :
    fill value (delimiter :: text) = delimiter :: fill value text :=
  fill_cons_of_ne plain.opens

theorem IsDelimiter.fill_append (plain : IsDelimiter value delimiter)
    {rest : List Char} :
    fill value (text ++ delimiter :: rest) =
      fill value text ++ delimiter :: fill value rest :=
  fill_append_cons plain.opens plain.closes plain.unnamed

theorem IsDelimiter.notMem_fill (plain : IsDelimiter value delimiter)
    (free : delimiter ∉ text) : delimiter ∉ fill value text := by
  intro member
  rcases mem_fill member with old | digit
  · exact free old
  · rw [plain.noDigit] at digit
    contradiction

theorem splitOnce_fill (plain : IsDelimiter value delimiter) :
    splitOnce delimiter (fill value text) =
      (splitOnce delimiter text).map fun parts =>
        (fill value parts.1, fill value parts.2) := by
  rcases splitOnce_cases delimiter text with
    ⟨free, split⟩ | ⟨before, after, free, rfl, split⟩
  · rw [split, splitOnce_eq_none (plain.notMem_fill free)]
    rfl
  · rw [split, plain.fill_append, splitOnce_append (plain.notMem_fill free)]
    rfl

theorem rsplitOnce_fill (plain : IsDelimiter value delimiter) :
    rsplitOnce delimiter (fill value text) =
      (rsplitOnce delimiter text).map fun parts =>
        (fill value parts.1, fill value parts.2) := by
  rcases rsplitOnce_cases delimiter text with
    ⟨free, split⟩ | ⟨before, after, free, rfl, split⟩
  · rw [split, rsplitOnce_eq_none (plain.notMem_fill free)]
    rfl
  · rw [split, plain.fill_append, rsplitOnce_append (plain.notMem_fill free)]
    rfl

theorem takeWhile_fill {keeps : Char → Bool}
    (plain : ∀ char, keeps char = false → IsDelimiter value char) :
    (fill value text).takeWhile keeps = fill value (text.takeWhile keeps) := by
  have kept : ∀ char ∈ fill value (text.takeWhile keeps),
      keeps char = true := by
    intro char member
    by_contra lost
    have delimiter := plain char (Bool.eq_false_iff.mpr lost)
    rcases mem_fill member with old | digit
    · exact lost (List.mem_takeWhile_imp old)
    · rw [delimiter.noDigit] at digit
      contradiction
  have parts : text = text.takeWhile keeps ++ text.dropWhile keeps :=
    List.takeWhile_append_dropWhile.symm
  cases rest : text.dropWhile keeps with
  | nil =>
      rw [rest, List.append_nil] at parts
      rw [← parts] at kept ⊢
      exact List.takeWhile_eq_self_iff.mpr kept
  | cons head tail =>
      have lost : keeps head = false := by
        have nonempty : text.dropWhile keeps ≠ [] := by
          rw [rest]
          exact List.cons_ne_nil _ _
        have first := List.head_dropWhile_not keeps nonempty
        simpa only [rest, List.head_cons] using first
      rw [rest] at parts
      conv_lhs => rw [parts]
      rw [(plain head lost).fill_append,
        List.takeWhile_append_of_pos kept,
        List.takeWhile_cons_of_neg (by simp [lost]), List.append_nil]

theorem dropWhile_fill {drops : Char → Bool}
    (plain : ∀ char, drops char = true → IsDelimiter value char) :
    (fill value text).dropWhile drops = fill value (text.dropWhile drops) := by
  induction text with
  | nil => rfl
  | cons head tail induction =>
      by_cases dropped : drops head = true
      · rw [(plain head dropped).fill_cons, List.dropWhile_cons_of_pos dropped,
          List.dropWhile_cons_of_pos dropped, induction]
      · rw [List.dropWhile_cons_of_neg dropped]
        cases filled : fill value (head :: tail) with
        | nil => rfl
        | cons first rest =>
            apply List.dropWhile_cons_of_neg
            intro drop
            obtain ⟨later, same, _⟩ :=
              cons_of_fill_cons filled (plain first drop).noDigit
            rw [(List.cons.inj same).1] at dropped
            exact dropped drop

/-- The step of `splitHost_fill` at a character which begins no placeholder
with a value. -/
theorem splitHost_fill_cons {head : Char} {inside : Bool}
    (plain : head = '{' → ∀ name rest, text = name :: '}' :: rest →
      value name = none)
    (later : ∀ {inside}, splitHost inside (fill value text) =
      (fill value (splitHost inside text).1,
        (splitHost inside text).2.map (fill value))) :
    splitHost inside (fill value (head :: text)) =
      (fill value (splitHost inside (head :: text)).1,
        (splitHost inside (head :: text)).2.map (fill value)) := by
  rw [fill_cons plain, splitHost, splitHost]
  by_cases port : head = ':' ∧ inside = false
  · rw [if_pos port, if_pos port]
    rfl
  · rw [if_neg port, if_neg port, later]
    dsimp only
    rw [fill_cons]
    intro brace name rest same
    -- The host is a prefix, so a placeholder in it is one of the text.
    obtain ⟨more, whole⟩ : name :: '}' :: rest <+: text := by
      rw [← same]
      exact splitHost_prefix
    exact plain brace name (rest ++ more) whole.symm

/-- Filling a text fills the host and the port at the same places. -/
theorem splitHost_fill {inside : Bool} (colon : IsDelimiter value ':')
    (opening : IsDelimiter value '[') (closing : IsDelimiter value ']') :
    splitHost inside (fill value text) =
      (fill value (splitHost inside text).1,
        (splitHost inside text).2.map (fill value)) := by
  fun_induction fill value text generalizing inside with
  | case1 name rest number found induction =>
      have named : ∀ char, value char = none → name ≠ char := by
        rintro char unnamed rfl
        rw [found] at unnamed
        contradiction
      have placeholder : ∀ char ∈ ['{', name, '}'],
          char ≠ ':' ∧ char ≠ '[' ∧ char ≠ ']' := by
        simp [named ':' colon.unnamed, named '[' opening.unnamed,
          named ']' closing.unnamed]
      have number : ∀ char ∈ digits number,
          char ≠ ':' ∧ char ≠ '[' ∧ char ≠ ']' := by
        intro char member
        have digit := isDigit_of_mem_digits member
        refine ⟨?_, ?_, ?_⟩ <;> rintro rfl <;> exact absurd digit (by decide)
      have skipped : splitHost inside ('{' :: name :: '}' :: rest) = _ :=
        splitHost_append placeholder
      rw [skipped, splitHost_append number, induction]
      simp only [List.cons_append, List.nil_append, fill, found]
  | case2 name rest unknown induction =>
      have filled : '{' :: fill value (name :: '}' :: rest) =
          fill value ('{' :: name :: '}' :: rest) := by
        rw [fill, unknown]
      rw [filled]
      refine splitHost_fill_cons ?_ induction
      rintro _ other later same
      rw [← (List.cons.inj same).1]
      exact unknown
  | case3 head rest plain induction =>
      have clear : head = '{' → ∀ name later, rest = name :: '}' :: later →
          value name = none := by
        rintro rfl name later rfl
        exact absurd rfl (plain name later rfl)
      rw [← fill_cons clear]
      exact splitHost_fill_cons clear induction
  | case4 => rfl

/-- The host text of a URL does not depend on where it is filled first. -/
theorem hostText_fill (plain : ∀ char, endsAuthority char = true ∨
      char = '@' ∨ char = ':' ∨ char = '[' ∨ char = ']' →
        IsDelimiter value char) :
    hostText (fill value text) = fill value (hostText text) := by
  have colon := plain ':' (.inr (.inr (.inl rfl)))
  have slash : ∀ char, isSlash char = true → IsDelimiter value char :=
    fun char skipped => plain char (.inl (by simp [endsAuthority, skipped]))
  have ends : ∀ char, (!endsAuthority char) = false →
      IsDelimiter value char :=
    fun char lost => plain char (.inl (by simpa using lost))
  unfold hostText authorityOf splitAuthority
  rw [splitOnce_fill colon, Option.map_map]
  cases splitOnce ':' text with
  | none => rfl
  | some parts =>
      simp only [Option.map_some, Option.getD_some, Function.comp_apply]
      rw [dropWhile_fill slash, takeWhile_fill ends,
        rsplitOnce_fill (plain '@' (.inr (.inl rfl)))]
      cases rsplitOnce '@' ((parts.2.dropWhile isSlash).takeWhile
          fun char => !endsAuthority char) with
      | none =>
          simp only [Option.map_none, Option.getD_none]
          rw [splitHost_fill colon]
          all_goals exact plain _ (by simp)
      | some inner =>
          simp only [Option.map_some, Option.getD_some]
          rw [splitHost_fill colon]
          all_goals exact plain _ (by simp)

end Fill

end Library.Url
