import ChartLocker.Library.Grammar
import ChartLocker.Style.Keys

/-!
# The grammar of source ids

`valid_source_id` folds over the bytes of an id and remembers whether the
last one was a separator.  The fold accepts the language of a regular
expression, so that neither separator of the cache keys and of the flight
keys occurs in an id.
-/

namespace ChartLocker.Style

open Library Grammar

def idLetters : List Char :=
  "abcdefghijklmnopqrstuvwxyz0123456789".toList

def idSeparators : List Char := ['.', '_', '-']

/-- `[a-z0-9]+([._-][a-z0-9]+)*`. -/
def sourceIdGrammar : RegularExpression Char :=
  oneOrMore (oneOf idLetters) *
    (oneOf idSeparators * oneOrMore (oneOf idLetters)).star

/-- What may follow a letter: words, each behind one separator. -/
def laterWords : RegularExpression Char :=
  (oneOf idSeparators * oneOrMore (oneOf idLetters)).star

theorem mem_laterWords {text : List Char} :
    text ∈ laterWords.matches' ↔ ∃ parts : List (List Char),
      text = parts.flatten ∧ ∀ part ∈ parts,
        part ∈ (oneOf idSeparators * oneOrMore (oneOf idLetters)).matches' := by
  rw [laterWords, RegularExpression.matches'_star, Language.mem_kstar]

theorem mem_sourceIdGrammar {text : List Char} :
    text ∈ sourceIdGrammar.matches' ↔
      ∃ word ∈ (oneOrMore (oneOf idLetters)).matches',
        ∃ rest ∈ laterWords.matches', word ++ rest = text := by
  rw [sourceIdGrammar, RegularExpression.matches'_mul, Language.mem_mul]
  rfl

theorem toNat_lt_of_isIdChar {char : Char} (letter : isIdChar char = true) :
    char.toNat < 128 := by
  change (decide (97 ≤ char.val) && decide (char.val ≤ 122) ||
    decide (48 ≤ char.val) && decide (char.val ≤ 57)) = true at letter
  simp only [Bool.or_eq_true, Bool.and_eq_true, decide_eq_true_eq,
    UInt32.le_iff_toNat_le] at letter
  have below : char.toNat ≤ 122 ∨ char.toNat ≤ 57 :=
    letter.imp And.right And.right
  omega

theorem isIdChar_iff (char : Char) :
    isIdChar char = true ↔ char ∈ idLetters := by
  constructor
  · intro letter
    have known : ∀ code ∈ List.range 128,
        isIdChar (Char.ofNat code) = true →
          Char.ofNat code ∈ idLetters := by decide +kernel
    have found := known char.toNat
      (List.mem_range.mpr (toNat_lt_of_isIdChar letter))
    rw [Char.ofNat_toNat] at found
    exact found letter
  · intro member
    have known : idLetters.all isIdChar = true := by decide +kernel
    exact List.all_eq_true.mp known char member

/-! ## The fold and the language -/

theorem wellSeparated_cons_letter {char : Char} (letter : isIdChar char = true)
    (separator : Bool) (rest : List Char) :
    wellSeparated separator (char :: rest) = wellSeparated false rest := by
  rw [wellSeparated, if_pos letter]

theorem wellSeparated_append {word : List Char}
    (letters : ∀ char ∈ word, char ∈ idLetters) (rest : List Char) :
    wellSeparated false (word ++ rest) = wellSeparated false rest := by
  induction word with
  | nil => rfl
  | cons char word induction =>
      rw [List.forall_mem_cons] at letters
      rw [List.cons_append,
        wellSeparated_cons_letter ((isIdChar_iff char).mpr letters.1)]
      exact induction letters.2

theorem wellSeparated_word {word : List Char}
    (matched : word ∈ (oneOrMore (oneOf idLetters)).matches')
    (separator : Bool) (rest : List Char) :
    wellSeparated separator (word ++ rest) = wellSeparated false rest := by
  obtain ⟨nonempty, letters⟩ := mem_oneOrMore_oneOf.mp matched
  cases word with
  | nil => exact absurd rfl nonempty
  | cons char word =>
      rw [List.forall_mem_cons] at letters
      rw [List.cons_append,
        wellSeparated_cons_letter ((isIdChar_iff char).mpr letters.1)]
      exact wellSeparated_append letters.2 rest

theorem wellSeparated_separator {char : Char} (member : char ∈ idSeparators)
    (rest : List Char) :
    wellSeparated false (char :: rest) = wellSeparated true rest := by
  have plain : (idSeparators.all fun other => !isIdChar other) = true := by
    decide
  have separates : char = '.' ∨ char = '_' ∨ char = '-' := by
    simpa [idSeparators] using member
  have other : isIdChar char = false := by
    simpa using List.all_eq_true.mp plain char member
  rw [wellSeparated, if_neg (Bool.eq_false_iff.mp other),
    if_pos ⟨separates, rfl⟩]

theorem wellSeparated_laterWords {text : List Char}
    (matched : text ∈ laterWords.matches') :
    wellSeparated false text = true := by
  obtain ⟨parts, rfl, each⟩ := mem_laterWords.mp matched
  clear matched
  induction parts with
  | nil => rfl
  | cons part parts induction =>
      rw [List.forall_mem_cons] at each
      obtain ⟨first, separates, word, letters, rfl⟩ := each.1
      obtain ⟨char, member, rfl⟩ := mem_oneOf.mp separates
      rw [List.flatten_cons, List.append_assoc, List.singleton_append,
        wellSeparated_separator member, wellSeparated_word letters]
      exact induction each.2

theorem laterWords_cons {char : Char} {text : List Char}
    (member : char ∈ idSeparators)
    (matched : text ∈ sourceIdGrammar.matches') :
    char :: text ∈ laterWords.matches' := by
  obtain ⟨word, letters, rest, later, rfl⟩ := mem_sourceIdGrammar.mp matched
  obtain ⟨parts, rfl, each⟩ := mem_laterWords.mp later
  apply mem_laterWords.mpr
  refine ⟨(char :: word) :: parts, rfl, List.forall_mem_cons.mpr ⟨?_, each⟩⟩
  exact ⟨[char], mem_oneOf.mpr ⟨char, member, rfl⟩, word, letters, rfl⟩

/-- The two states of the fold: behind a separator a whole id is missing,
behind a letter the rest of its word and the later words. -/
theorem wellSeparated_split {separator : Bool} {text : List Char}
    (accepted : wellSeparated separator text = true) :
    ∃ word rest, text = word ++ rest ∧ (∀ char ∈ word, char ∈ idLetters) ∧
      rest ∈ laterWords.matches' ∧ (separator = true → word ≠ []) := by
  induction text generalizing separator with
  | nil =>
      refine ⟨[], [], rfl, List.forall_mem_nil _, ?_, ?_⟩
      · exact Language.nil_mem_kstar _
      · intro behind
        rw [behind] at accepted
        exact absurd accepted (by decide)
  | cons char text induction =>
      rw [wellSeparated] at accepted
      split at accepted
      · next letter =>
        obtain ⟨word, rest, rfl, letters, later, _⟩ := induction accepted
        refine ⟨char :: word, rest, rfl, ?_, later,
          fun _ => List.cons_ne_nil _ _⟩
        exact List.forall_mem_cons.mpr ⟨(isIdChar_iff char).mp letter, letters⟩
      · split at accepted
        · next separates =>
          obtain ⟨word, rest, rfl, letters, later, nonempty⟩ :=
            induction accepted
          have member : char ∈ idSeparators := by
            simpa [idSeparators] using separates.1
          refine ⟨[], char :: (word ++ rest), rfl, List.forall_mem_nil _, ?_,
            fun behind => ?_⟩
          · apply laterWords_cons member
            exact mem_sourceIdGrammar.mpr ⟨word,
              mem_oneOrMore_oneOf.mpr ⟨nonempty rfl, letters⟩, rest, later, rfl⟩
          · rw [behind] at separates
            exact absurd separates.2 (by decide)
        · contradiction

theorem wellSeparated_true_iff (text : List Char) :
    wellSeparated true text = true ↔ text ∈ sourceIdGrammar.matches' := by
  constructor
  · intro accepted
    obtain ⟨word, rest, rfl, letters, later, nonempty⟩ :=
      wellSeparated_split accepted
    exact mem_sourceIdGrammar.mpr ⟨word,
      mem_oneOrMore_oneOf.mpr ⟨nonempty rfl, letters⟩, rest, later, rfl⟩
  · intro matched
    obtain ⟨word, letters, rest, later, rfl⟩ := mem_sourceIdGrammar.mp matched
    rw [wellSeparated_word letters]
    exact wellSeparated_laterWords later

/-- The check of the first byte leaves the fold in the state behind a
separator. -/
theorem head_and_wellSeparated (text : List Char) :
    (text.head?.any isIdChar && wellSeparated false text) =
      wellSeparated true text := by
  cases text with
  | nil => rfl
  | cons char rest =>
      rw [List.head?_cons, Option.any_some]
      by_cases letter : isIdChar char = true
      · rw [letter, Bool.true_and, wellSeparated_cons_letter letter,
          wellSeparated_cons_letter letter]
      · rw [Bool.not_eq_true] at letter
        rw [letter, Bool.false_and, wellSeparated, if_neg (by simp [letter]),
          if_neg (by simp)]

theorem validSourceId_iff_matches (value : String) :
    validSourceId value = true ↔
      value.utf8ByteSize ≤ 256 ∧
        value.toList ∈ sourceIdGrammar.matches' := by
  rw [← wellSeparated_true_iff, ← head_and_wellSeparated]
  simp only [validSourceId, Bool.and_eq_true, decide_eq_true_eq]
  constructor
  · rintro ⟨⟨first, short⟩, separated⟩
    exact ⟨short, first, separated⟩
  · rintro ⟨short, first, separated⟩
    exact ⟨⟨first, short⟩, separated⟩

/-! ## What an id cannot contain -/

theorem mem_of_sourceIdGrammar {text : List Char}
    (matched : text ∈ sourceIdGrammar.matches') {char : Char}
    (member : char ∈ text) : char ∈ idLetters ∨ char ∈ idSeparators := by
  obtain ⟨word, letters, rest, later, rfl⟩ := mem_sourceIdGrammar.mp matched
  obtain ⟨parts, rfl, each⟩ := mem_laterWords.mp later
  rcases List.mem_append.mp member with inside | inside
  · exact .inl ((mem_oneOrMore_oneOf.mp letters).2 char inside)
  · obtain ⟨part, contained, inside⟩ := List.mem_flatten.mp inside
    obtain ⟨first, separates, word, letters, rfl⟩ := each part contained
    obtain ⟨separator, known, rfl⟩ := mem_oneOf.mp separates
    rcases List.mem_cons.mp inside with same | inside
    · exact .inr (same ▸ known)
    · exact .inl ((mem_oneOrMore_oneOf.mp letters).2 char inside)

theorem head_of_sourceIdGrammar {text : List Char}
    (matched : text ∈ sourceIdGrammar.matches') :
    ∃ char rest, text = char :: rest ∧ char ∈ idLetters := by
  obtain ⟨word, letters, rest, _, rfl⟩ := mem_sourceIdGrammar.mp matched
  obtain ⟨nonempty, letters⟩ := mem_oneOrMore_oneOf.mp letters
  cases word with
  | nil => exact absurd rfl nonempty
  | cons char word =>
      exact ⟨char, word ++ rest, rfl, letters char List.mem_cons_self⟩

/-- An accepted id is a path segment of its own and keeps the separators of
the keys apart. -/
structure SeparatesKeys (value : String) : Prop where
  noColon : ':' ∉ value.toList
  noSlash : '/' ∉ value.toList
  notDot : value ≠ "."
  notDotDot : value ≠ ".."

theorem separatesKeys_of_matches {value : String}
    (matched : value.toList ∈ sourceIdGrammar.matches') :
    SeparatesKeys value := by
  obtain ⟨first, rest, text, letter⟩ := head_of_sourceIdGrammar matched
  have notDot : first ≠ '.' := by
    intro same
    rw [same] at letter
    exact absurd letter (by decide)
  constructor
  · intro member
    exact absurd (mem_of_sourceIdGrammar matched member) (by decide)
  · intro member
    exact absurd (mem_of_sourceIdGrammar matched member) (by decide)
  · intro same
    rw [same] at text
    exact notDot (List.cons.inj text).1.symm
  · intro same
    rw [same] at text
    exact notDot (List.cons.inj text).1.symm

/-- The fold accepts exactly the grammar, within the bound on the length. -/
theorem validSourceId_exact (value : String) :
    (validSourceId value = true ↔
      value.utf8ByteSize ≤ 256 ∧
        value.toList ∈ sourceIdGrammar.matches') ∧
    (validSourceId value = true → SeparatesKeys value) := by
  have accepts := validSourceId_iff_matches value
  exact ⟨accepts, fun valid => separatesKeys_of_matches (accepts.mp valid).2⟩

end ChartLocker.Style
