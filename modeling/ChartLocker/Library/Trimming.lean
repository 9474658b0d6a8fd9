import Mathlib.Data.List.DropRight
import Mathlib.Data.List.TakeWhile

/-!
# Trimming

Dropping the white characters at both ends of a text, for any notion of white
space, and the one of ECMAScript.
-/

namespace Library.Trimming

variable {α : Type} {white : α → Bool} {text before middle after : List α}

def trimBy (white : α → Bool) (text : List α) : List α :=
  ((text.dropWhile white).reverse.dropWhile white).reverse

theorem dropWhile_append_of_white (blank : before.all white = true) :
    (before ++ text).dropWhile white = text.dropWhile white :=
  List.dropWhile_append_of_pos (List.all_eq_true.mp blank)

/-- A text is its trimmed text with white characters around it. -/
theorem exists_trimBy (white : α → Bool) (text : List α) :
    ∃ before after, before.all white = true ∧ after.all white = true ∧
      text = before ++ trimBy white text ++ after := by
  let rest := text.dropWhile white
  refine ⟨text.takeWhile white, (rest.reverse.takeWhile white).reverse,
    List.all_takeWhile, ?_, ?_⟩
  · rw [List.all_reverse]
    exact List.all_takeWhile
  · have back : trimBy white text ++ (rest.reverse.takeWhile white).reverse =
        rest := by
      unfold trimBy
      rw [← List.reverse_append, List.takeWhile_append_dropWhile,
        List.reverse_reverse]
    rw [List.append_assoc, back]
    exact List.takeWhile_append_dropWhile.symm

/-- A text which neither begins nor ends white. -/
structure Bare (white : α → Bool) (text : List α) : Prop where
  first : ∀ letter ∈ text.head?, white letter = false
  last : ∀ letter ∈ text.getLast?, white letter = false

theorem bare_of_forall (plain : ∀ letter ∈ text, white letter = false) :
    Bare white text := by
  constructor
  · intro letter first
    exact plain letter (List.mem_of_mem_head? first)
  · intro letter last
    exact plain letter (List.mem_of_mem_getLast? last)

theorem dropWhile_of_bare (first : ∀ letter ∈ middle.head?,
      white letter = false) (blank : after.all white = true) :
    (middle ++ after).dropWhile white =
      if middle = [] then [] else middle ++ after := by
  cases middle with
  | nil =>
      rw [List.nil_append, if_pos rfl]
      exact List.dropWhile_eq_nil_iff.mpr (List.all_eq_true.mp blank)
  | cons head rest =>
      rw [if_neg (List.cons_ne_nil head rest), List.cons_append]
      apply List.dropWhile_cons_of_neg
      rw [first head rfl]
      exact Bool.false_ne_true

theorem trimBy_padded (bare : Bare white middle)
    (blankBefore : before.all white = true)
    (blankAfter : after.all white = true) :
    trimBy white (before ++ middle ++ after) = middle := by
  have turned : after.reverse.all white = true := by
    rw [List.all_reverse]
    exact blankAfter
  unfold trimBy
  rw [List.append_assoc, dropWhile_append_of_white blankBefore,
    dropWhile_of_bare bare.first blankAfter]
  split
  · next empty =>
      rw [empty]
      rfl
  · next nonempty =>
      rw [List.reverse_append, dropWhile_append_of_white turned]
      have last : ∀ letter ∈ middle.reverse.head?, white letter = false := by
        intro letter
        rw [List.head?_reverse]
        exact bare.last letter
      have kept := dropWhile_of_bare last (List.all_nil (f := white))
      rw [if_neg fun empty => nonempty (List.reverse_eq_nil_iff.mp empty),
        List.append_nil] at kept
      rw [kept, List.reverse_reverse]

/-- What a text is trimmed to when it is bare. -/
theorem trimBy_eq_iff (bare : Bare white middle) :
    trimBy white text = middle ↔
      ∃ before after, before.all white = true ∧ after.all white = true ∧
        text = before ++ middle ++ after := by
  constructor
  · intro trimmed
    rw [← trimmed]
    exact exists_trimBy white text
  · intro ⟨before, after, blankBefore, blankAfter, whole⟩
    rw [whole]
    exact trimBy_padded bare blankBefore blankAfter

theorem bare_trimBy (white : α → Bool) (text : List α) :
    Bare white (trimBy white text) := by
  have shape : trimBy white text =
      (text.dropWhile white).rdropWhile white := by
    rfl
  rw [shape]
  constructor
  · intro letter first
    have lead : letter ∈ (text.dropWhile white).head? := by
      obtain ⟨rest, whole⟩ :=
        List.rdropWhile_prefix white (text.dropWhile white)
      rw [← whole]
      exact List.mem_head?_append_of_mem_head? first
    have heads := List.head?_dropWhile_not white text
    rw [Option.mem_def.mp lead] at heads
    simpa using heads
  · intro letter last
    obtain ⟨before, whole⟩ := List.mem_getLast?_eq_getLast last
    have nonempty : (text.dropWhile white).rdropWhile white ≠ [] := by
      intro empty
      rw [empty] at last
      simp at last
    have ends := List.rdropWhile_last_not white (text.dropWhile white) nonempty
    rw [whole]
    simpa using ends

theorem trimBy_of_bare (bare : Bare white text) :
    trimBy white text = text := by
  have padded := trimBy_padded bare (List.all_nil (f := white))
    (List.all_nil (f := white))
  simpa using padded

theorem trimBy_trimBy (white : α → Bool) (text : List α) :
    trimBy white (trimBy white text) = trimBy white text :=
  trimBy_of_bare (bare_trimBy white text)

theorem mem_of_mem_trimBy {letter : α}
    (member : letter ∈ trimBy white text) : letter ∈ text := by
  obtain ⟨before, after, -, -, whole⟩ := exists_trimBy white text
  rw [whole]
  exact List.mem_append_left _ (List.mem_append_right _ member)

theorem trimBy_sublist (white : α → Bool) (text : List α) :
    (trimBy white text).Sublist text := by
  obtain ⟨before, after, _, _, whole⟩ := exists_trimBy white text
  have inside : trimBy white text <:+: text := ⟨before, after, whole.symm⟩
  exact inside.sublist

/-- What is not white stays. -/
theorem mem_trimBy_of_plain {letter : α} (plain : white letter = false)
    (member : letter ∈ text) : letter ∈ trimBy white text := by
  obtain ⟨before, after, blankBefore, blankAfter, whole⟩ :=
    exists_trimBy white text
  rw [whole, List.mem_append, List.mem_append] at member
  rcases member with (outside | inside) | outside
  · have blank := List.all_eq_true.mp blankBefore letter outside
    rw [plain] at blank
    cases blank
  · exact inside
  · have blank := List.all_eq_true.mp blankAfter letter outside
    rw [plain] at blank
    cases blank

/-- `WhiteSpace` and `LineTerminator`. -/
def isEcmaWhite (char : Char) : Bool :=
  decide (0x9 ≤ char.toNat ∧ char.toNat ≤ 0xd) ||
    decide (0x2000 ≤ char.toNat ∧ char.toNat ≤ 0x200a) ||
    [0x20, 0xa0, 0x1680, 0x2028, 0x2029, 0x202f, 0x205f, 0x3000,
      0xfeff].contains char.toNat

/-- `String.prototype.trim`. -/
def ecmaTrim (text : List Char) : List Char :=
  trimBy isEcmaWhite text

end Library.Trimming
