import Mathlib.Data.List.Basic

/-!
# Text

The text functions of a standard library, on lists of characters: splitting
at a separator, stripping a suffix, replacing a pattern, and reading an
unsigned number.
-/

namespace Library.Text

variable {α : Type}

/-- Parts without the separator in front of its first occurrence are
determined by the whole. -/
theorem append_cons_inj {separator : α} {left right : List α}
    (leftFree : separator ∉ left) (rightFree : separator ∉ right)
    {leftRest rightRest : List α}
    (same : left ++ separator :: leftRest =
      right ++ separator :: rightRest) :
    left = right ∧ leftRest = rightRest := by
  induction left generalizing right with
  | nil =>
      cases right with
      | nil => exact ⟨rfl, (List.cons.inj same).2⟩
      | cons head tail =>
          have first : separator = head := (List.cons.inj same).1
          exact absurd (first ▸ List.mem_cons_self) rightFree
  | cons head tail induction =>
      cases right with
      | nil =>
          have first : head = separator := (List.cons.inj same).1
          exact absurd (first ▸ List.mem_cons_self) leftFree
      | cons other rest =>
          obtain ⟨rfl, later⟩ := List.cons.inj same
          obtain ⟨rfl, tails⟩ := induction
            (fun member => leftFree (List.mem_cons_of_mem _ member))
            (fun member => rightFree (List.mem_cons_of_mem _ member)) later
          exact ⟨rfl, tails⟩

theorem intercalate_append_last (glue : List α) (others : List (List α))
    (last after : List α) :
    glue.intercalate (others ++ [last]) ++ after =
      glue.intercalate (others ++ [last ++ after]) := by
  induction others with
  | nil => simp
  | cons other others induction =>
      rw [List.cons_append, List.cons_append,
        List.intercalate_cons_of_ne_nil (by simp),
        List.intercalate_cons_of_ne_nil (by simp), ← induction,
        List.append_assoc]

theorem append_intercalate_cons (glue before first : List α)
    (others : List (List α)) :
    before ++ glue.intercalate (first :: others) =
      glue.intercalate ((before ++ first) :: others) := by
  cases others with
  | nil => simp
  | cons other others =>
      rw [List.intercalate_cons_cons, List.intercalate_cons_cons,
        List.append_assoc, List.append_assoc, List.append_assoc]

theorem mem_intercalate_of_mem {glue part : List α} {parts : List (List α)}
    (member : part ∈ parts) {letter : α} (inside : letter ∈ part) :
    letter ∈ glue.intercalate parts := by
  induction parts with
  | nil => exact absurd member List.not_mem_nil
  | cons first others induction =>
      rw [← List.append_nil first, ← append_intercalate_cons]
      rcases List.mem_cons.mp member with rfl | later
      · exact List.mem_append_left _ inside
      · apply List.mem_append_right
        cases others with
        | nil => exact absurd later List.not_mem_nil
        | cons next others =>
            rw [List.intercalate_cons_cons, List.nil_append]
            exact List.mem_append_right _ (induction later)

section Split

variable [DecidableEq α]

/-- The parts before and behind the first occurrence of a separator. -/
def splitOnce (separator : α) : List α → Option (List α × List α)
  | [] => none
  | head :: tail =>
      if head = separator then
        some ([], tail)
      else
        (splitOnce separator tail).map fun parts => (head :: parts.1, parts.2)

/-- The parts before and behind the last occurrence of a separator. -/
def rsplitOnce (separator : α) (text : List α) :
    Option (List α × List α) :=
  (splitOnce separator text.reverse).map fun parts =>
    (parts.2.reverse, parts.1.reverse)

theorem splitOnce_append {separator : α} {before after : List α}
    (free : separator ∉ before) :
    splitOnce separator (before ++ separator :: after) =
      some (before, after) := by
  induction before with
  | nil => exact if_pos rfl
  | cons head tail induction =>
      have different : head ≠ separator :=
        fun same => free (same ▸ List.mem_cons_self)
      have rest := induction fun member => free (List.mem_cons_of_mem _ member)
      rw [List.cons_append, splitOnce, if_neg different, rest]
      rfl

theorem splitOnce_eq_none {separator : α} {text : List α}
    (free : separator ∉ text) : splitOnce separator text = none := by
  induction text with
  | nil => rfl
  | cons head tail induction =>
      rw [List.mem_cons, not_or] at free
      rw [splitOnce, if_neg fun same => free.1 same.symm, induction free.2]
      rfl

theorem splitOnce_cases (separator : α) (text : List α) :
    (separator ∉ text ∧ splitOnce separator text = none) ∨
      ∃ before after, separator ∉ before ∧
        text = before ++ separator :: after ∧
        splitOnce separator text = some (before, after) := by
  by_cases member : separator ∈ text
  · obtain ⟨before, after, rfl, free⟩ := List.eq_append_cons_of_mem member
    exact .inr ⟨before, after, free, rfl, splitOnce_append free⟩
  · exact .inl ⟨member, splitOnce_eq_none member⟩

theorem rsplitOnce_append {separator : α} {before after : List α}
    (free : separator ∉ after) :
    rsplitOnce separator (before ++ separator :: after) =
      some (before, after) := by
  have reversed : (before ++ separator :: after).reverse =
      after.reverse ++ separator :: before.reverse := by
    rw [List.reverse_append, List.reverse_cons, List.append_assoc]
    rfl
  unfold rsplitOnce
  rw [reversed,
    splitOnce_append fun member => free (List.mem_reverse.mp member),
    Option.map_some, List.reverse_reverse, List.reverse_reverse]

theorem rsplitOnce_eq_none {separator : α} {text : List α}
    (free : separator ∉ text) : rsplitOnce separator text = none := by
  unfold rsplitOnce
  rw [splitOnce_eq_none fun member => free (List.mem_reverse.mp member)]
  rfl

theorem rsplitOnce_cases (separator : α) (text : List α) :
    (separator ∉ text ∧ rsplitOnce separator text = none) ∨
      ∃ before after, separator ∉ after ∧
        text = before ++ separator :: after ∧
        rsplitOnce separator text = some (before, after) := by
  by_cases member : separator ∈ text
  · obtain ⟨after, before, parts, free⟩ :=
      List.eq_append_cons_of_mem (List.mem_reverse.mpr member)
    have whole : text = before.reverse ++ separator :: after.reverse := by
      rw [← @List.reverse_reverse _ text, parts, List.reverse_append,
        List.reverse_cons, List.append_assoc]
      rfl
    have later : separator ∉ after.reverse :=
      fun member => free (List.mem_reverse.mp member)
    refine .inr ⟨before.reverse, after.reverse, later, whole, ?_⟩
    rw [whole]
    exact rsplitOnce_append later
  · exact .inl ⟨member, rsplitOnce_eq_none member⟩

/-! ### All parts of a text -/

section Parts

variable {separator : α} {text : List α}

theorem notMem_of_mem_splitOn {part : List α}
    (member : part ∈ text.splitOn separator) : separator ∉ part := by
  induction text generalizing part with
  | nil =>
      rw [List.splitOn_nil, List.mem_singleton] at member
      rw [member]
      exact List.not_mem_nil
  | cons head text induction =>
      obtain ⟨first, others, parts⟩ := List.exists_cons_of_ne_nil
        (List.splitOn_ne_nil separator text)
      rw [parts] at induction
      rw [List.splitOn_cons_eq_if_modifyHead, parts] at member
      split at member
      · rcases List.mem_cons.mp member with rfl | later
        · exact List.not_mem_nil
        · exact induction later
      · next different =>
        rcases List.mem_cons.mp member with rfl | later
        · rw [List.mem_cons, not_or]
          refine ⟨?_, induction List.mem_cons_self⟩
          rintro rfl
          exact different (BEq.refl _)
        · exact induction (List.mem_cons_of_mem _ later)

theorem mem_of_mem_splitOn {part : List α}
    (member : part ∈ text.splitOn separator) {letter : α}
    (inside : letter ∈ part) : letter ∈ text := by
  have glued : letter ∈ [separator].intercalate (text.splitOn separator) :=
    mem_intercalate_of_mem member inside
  rwa [List.intercalate_splitOn] at glued

theorem exists_mem_splitOn {letter : α} (inside : letter ∈ text)
    (different : letter ≠ separator) :
    ∃ part ∈ text.splitOn separator, letter ∈ part := by
  induction text with
  | nil => exact absurd inside List.not_mem_nil
  | cons head text induction =>
      obtain ⟨first, others, parts⟩ := List.exists_cons_of_ne_nil
        (List.splitOn_ne_nil separator text)
      rw [parts] at induction
      rw [List.splitOn_cons_eq_if_modifyHead, parts]
      rcases List.mem_cons.mp inside with rfl | later
      · rw [if_neg fun same => different (beq_iff_eq.mp same)]
        exact ⟨letter :: first, List.mem_cons_self, List.mem_cons_self⟩
      · obtain ⟨part, member, within⟩ := induction later
        split
        · exact ⟨part, List.mem_cons_of_mem _ member, within⟩
        · rcases List.mem_cons.mp member with rfl | other
          · exact ⟨head :: part, List.mem_cons_self,
              List.mem_cons_of_mem _ within⟩
          · exact ⟨part, List.mem_cons_of_mem _ other, within⟩

/-- The parts of a list of texts are those of each text. -/
theorem splitOn_intercalate_flatMap (separator : α) {texts : List (List α)}
    (nonempty : texts ≠ []) :
    ([separator].intercalate texts).splitOn separator =
      texts.flatMap (List.splitOn separator) := by
  induction texts with
  | nil => exact absurd rfl nonempty
  | cons text others induction =>
      cases others with
      | nil => simp
      | cons next others =>
          rw [List.intercalate_cons_cons, List.append_assoc,
            List.singleton_append, List.splitOn_append_cons_self,
            induction (List.cons_ne_nil _ _)]
          rfl

/-- Around a text with separators, texts without one belong to its first and
its last part. -/
theorem splitOn_between {before after first last : List α}
    {inner : List (List α)} (freeBefore : separator ∉ before)
    (freeAfter : separator ∉ after)
    (parts : text.splitOn separator = first :: (inner ++ [last])) :
    (before ++ text ++ after).splitOn separator =
      (before ++ first) :: (inner ++ [last ++ after]) := by
  have spelled : text =
      [separator].intercalate (first :: (inner ++ [last])) := by
    rw [← parts, List.intercalate_splitOn]
  have free : ∀ part ∈ text.splitOn separator, separator ∉ part :=
    fun part => notMem_of_mem_splitOn
  rw [parts] at free
  have whole : before ++ text ++ after =
      [separator].intercalate
        ((before ++ first) :: (inner ++ [last ++ after])) := by
    rw [spelled, append_intercalate_cons, ← List.cons_append,
      intercalate_append_last, List.cons_append]
  rw [whole]
  apply List.splitOn_intercalate
  · intro part member
    rcases List.mem_cons.mp member with rfl | later
    · exact List.not_mem_append freeBefore (free first List.mem_cons_self)
    · rcases List.mem_append.mp later with inside | final
      · exact free part (List.mem_cons_of_mem _
          (List.mem_append_left _ inside))
      · rw [List.mem_singleton.mp final]
        have lastFree := free last (List.mem_cons_of_mem _
          (List.mem_append_right _ List.mem_cons_self))
        exact List.not_mem_append lastFree freeAfter
  · exact List.cons_ne_nil _ _

end Parts

def stripSuffix (text suffix : List α) : Option (List α) :=
  if suffix <:+ text then
    some (text.take (text.length - suffix.length))
  else
    none

/-- Replace a pattern from left to right; `skipped` characters belong to an
occurrence which has been replaced. -/
def replaceFrom (pattern replacement : List α) : Nat → List α → List α
  | _, [] => []
  | skipped + 1, _ :: tail =>
      replaceFrom pattern replacement skipped tail
  | 0, head :: tail =>
      if pattern <+: head :: tail then
        replacement ++
          replaceFrom pattern replacement (pattern.length - 1) tail
      else
        head :: replaceFrom pattern replacement 0 tail

/-- What stands behind the first occurrence of a pattern. -/
def behindFirst (pattern : List α) : List α → Option (List α)
  | [] => none
  | head :: tail =>
      if pattern <+: head :: tail then
        some ((head :: tail).drop pattern.length)
      else
        behindFirst pattern tail

/-- How often a pattern occurs; `skipped` characters belong to an occurrence
which has been counted. -/
def countFrom (pattern : List α) : Nat → List α → Nat
  | _, [] => 0
  | skipped + 1, _ :: tail => countFrom pattern skipped tail
  | 0, head :: tail =>
      if pattern <+: head :: tail then
        countFrom pattern (pattern.length - 1) tail + 1
      else
        countFrom pattern 0 tail

def replace (text pattern replacement : String) : String :=
  String.ofList (replaceFrom pattern.toList replacement.toList 0 text.toList)

end Split

/-- Read an unsigned decimal number with an optional plus sign. -/
def parseUnsigned (limit : Nat) (text : List Char) : Option Nat :=
  let digits := match text with
    | '+' :: rest => rest
    | _ => text
  if digits ≠ [] ∧ digits.all Char.isDigit then
    let value := Nat.ofDigitChars 10 digits 0
    if value ≤ limit then some value else none
  else
    none

example : replace "https://tiles.org/{z}/{x}.png?{z}" "{z}" "7" =
    "https://tiles.org/7/{x}.png?7" := by decide +kernel

end Library.Text
