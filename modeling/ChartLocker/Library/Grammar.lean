import Mathlib.Computability.RegularExpressions

/-!
# Character classes

Regular expressions over classes of letters: the class itself, its
repetitions, and the texts which they match.
-/

namespace Library.Grammar

variable {α : Type}

/-- A letter of a class. -/
def oneOf (letters : List α) : RegularExpression α :=
  letters.foldr (fun letter others => .char letter + others) 0

def oneOrMore (expression : RegularExpression α) : RegularExpression α :=
  expression * expression.star

theorem mem_oneOf {letters text : List α} :
    text ∈ (oneOf letters).matches' ↔ ∃ letter ∈ letters, text = [letter] := by
  induction letters with
  | nil =>
      refine ⟨fun member => absurd member ?_, fun ⟨_, member, _⟩ => ?_⟩
      · exact Language.notMem_zero text
      · exact absurd member List.not_mem_nil
  | cons letter others induction =>
      have unfolded : (oneOf (letter :: others)).matches' =
          {[letter]} + (oneOf others).matches' := rfl
      rw [unfolded, Language.mem_add, induction, List.exists_mem_cons_iff]
      rfl

/-- A star over a class matches the texts of its letters. -/
theorem mem_star_oneOf {letters text : List α} :
    text ∈ (oneOf letters).star.matches' ↔
      ∀ letter ∈ text, letter ∈ letters := by
  rw [RegularExpression.matches'_star, Language.mem_kstar]
  constructor
  · rintro ⟨words, rfl, matched⟩ letter member
    obtain ⟨word, contained, inside⟩ := List.mem_flatten.mp member
    obtain ⟨found, known, rfl⟩ := mem_oneOf.mp (matched word contained)
    rw [List.mem_singleton.mp inside]
    exact known
  · intro known
    refine ⟨text.map fun letter => [letter], ?_, ?_⟩
    · induction text with
      | nil => rfl
      | cons letter rest induction =>
          have tail := induction fun letter member =>
            known letter (List.mem_cons_of_mem _ member)
          rw [List.map_cons, List.flatten_cons, ← tail]
          rfl
    · intro word member
      obtain ⟨letter, inside, rfl⟩ := List.mem_map.mp member
      exact mem_oneOf.mpr ⟨letter, known letter inside, rfl⟩

theorem mem_oneOrMore_oneOf {letters text : List α} :
    text ∈ (oneOrMore (oneOf letters)).matches' ↔
      text ≠ [] ∧ ∀ letter ∈ text, letter ∈ letters := by
  constructor
  · rintro ⟨first, single, rest, later, rfl⟩
    obtain ⟨letter, known, rfl⟩ := mem_oneOf.mp single
    refine ⟨List.cons_ne_nil _ _, ?_⟩
    exact List.forall_mem_cons.mpr ⟨known, mem_star_oneOf.mp later⟩
  · rintro ⟨nonempty, known⟩
    cases text with
    | nil => exact absurd rfl nonempty
    | cons letter rest =>
        rw [List.forall_mem_cons] at known
        exact ⟨[letter], mem_oneOf.mpr ⟨letter, known.1, rfl⟩, rest,
          mem_star_oneOf.mpr known.2, rfl⟩

end Library.Grammar
