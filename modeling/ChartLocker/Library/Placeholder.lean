import ChartLocker.Library.Text
import Mathlib.Data.List.Infix
import Mathlib.Logic.Function.Basic

/-!
# Placeholders

A placeholder is a name of one character between braces.  Filling a text puts
a number in the place of every placeholder which has a value, all at once;
replacing the placeholders one after the other comes to the same, because a
number has neither names nor braces.
-/

namespace Library.Placeholder

open Text

def digits (number : Nat) : List Char :=
  number.repr.toList

/-- The text with numbers in the place of the placeholders which have one. -/
def fill (value : Char → Option Nat) : List Char → List Char
  | '{' :: name :: '}' :: rest =>
      match value name with
      | some number => digits number ++ fill value rest
      | none => '{' :: fill value (name :: '}' :: rest)
  | head :: rest => head :: fill value rest
  | [] => []

-- The theorems below follow the equations of `fill` by this principle.
attribute [elab_as_elim] fill.induct_unfolding

/-- The text has the placeholder of a name. -/
def Mentions (name : Char) (text : List Char) : Prop :=
  ['{', name, '}'] <:+: text

/-- What a placeholder is told by: no digit and no brace. -/
def IsName (name : Char) : Prop :=
  name.isDigit = false ∧ name ≠ '{' ∧ name ≠ '}'

instance (name : Char) : Decidable (IsName name) :=
  inferInstanceAs (Decidable (_ ∧ _ ∧ _))

section Digits

theorem isDigit_of_mem_digits {number : Nat} {char : Char}
    (member : char ∈ digits number) : char.isDigit = true := by
  unfold digits at member
  rw [Nat.toList_repr] at member
  exact Nat.isDigit_of_mem_toDigits (by decide) (by decide) member

theorem digits_ne_nil (number : Nat) : digits number ≠ [] := by
  unfold digits
  rw [Nat.toList_repr]
  exact Nat.toDigits_ne_nil

theorem digits_inj {left right : Nat} (same : digits left = digits right) :
    left = right := by
  unfold digits at same
  rw [Nat.toList_repr, Nat.toList_repr] at same
  have read := congrArg (fun text => Nat.ofDigitChars 10 text 0) same
  simpa only [Nat.ofDigitChars_ten_toDigits] using read

end Digits

section Fill

variable {value other : Char → Option Nat} {name delimiter head : Char}
  {text rest : List Char}

/-- A character which does not begin a placeholder with a value stays. -/
theorem fill_cons (plain : head = '{' → ∀ name rest,
    text = name :: '}' :: rest → value name = none) :
    fill value (head :: text) = head :: fill value text := by
  rw [fill.eq_def]
  split
  · next name rest same =>
    obtain ⟨rfl, rfl⟩ := List.cons.inj same
    rw [plain rfl name rest rfl]
  · next clear same =>
    obtain ⟨rfl, rfl⟩ := List.cons.inj same
    rfl
  · next same => contradiction

theorem fill_cons_of_ne (plain : head ≠ '{') :
    fill value (head :: text) = head :: fill value text :=
  fill_cons fun same => absurd same plain

/-- What is no digit in a filled text comes from the text. -/
theorem mem_fill {char : Char} (member : char ∈ fill value text) :
    char ∈ text ∨ char.isDigit = true := by
  fun_induction fill value text with
  | case1 name rest number found induction =>
      rcases List.mem_append.mp member with digit | later
      · exact .inr (isDigit_of_mem_digits digit)
      · refine (induction later).imp_left fun old => ?_
        exact List.mem_cons_of_mem _ (List.mem_cons_of_mem _
          (List.mem_cons_of_mem _ old))
  | case2 name rest found induction =>
      rcases List.mem_cons.mp member with rfl | later
      · exact .inl List.mem_cons_self
      · exact (induction later).imp_left (List.mem_cons_of_mem _)
  | case3 head rest plain induction =>
      rcases List.mem_cons.mp member with rfl | later
      · exact .inl List.mem_cons_self
      · exact (induction later).imp_left (List.mem_cons_of_mem _)
  | case4 => exact .inl member

/-- Filling does not look across a character which is in no placeholder. -/
theorem fill_append_cons (opens : delimiter ≠ '{') (closes : delimiter ≠ '}')
    (unnamed : value delimiter = none) :
    fill value (text ++ delimiter :: rest) =
      fill value text ++ delimiter :: fill value rest := by
  fun_induction fill value text with
  | case1 name text number found induction =>
      simp only [List.cons_append, fill, found, List.append_assoc]
      rw [induction]
  | case2 name text found induction =>
      simp only [List.cons_append, fill, found] at induction ⊢
      rw [induction]
  | case3 head text plain induction =>
      rw [List.cons_append, fill_cons, induction]
      · rfl
      · rintro rfl name later same
        cases text with
        | nil =>
            obtain ⟨rfl, _⟩ := List.cons.inj same
            exact unnamed
        | cons first others =>
            obtain ⟨rfl, tails⟩ := List.cons.inj same
            cases others with
            | nil => exact absurd (List.cons.inj tails).1 closes
            | cons second others =>
                obtain ⟨rfl, _⟩ := List.cons.inj tails
                exact absurd rfl (plain first others rfl)
  | case4 => exact fill_cons_of_ne opens

theorem fill_none : fill (fun _ => none) text = text := by
  induction text with
  | nil => rfl
  | cons head tail induction =>
      rw [fill_cons fun _ _ _ _ => rfl, induction]

/-- Filling depends on the values of the placeholders of the text. -/
theorem fill_congr (same : ∀ name, Mentions name text →
    value name = other name) : fill value text = fill other text := by
  fun_induction fill value text with
  | case1 name rest number found induction =>
      have equal := same name ⟨[], rest, rfl⟩
      have later := induction fun name inside => same name
        (inside.trans (List.suffix_append ['{', _, '}'] rest).isInfix)
      simp only [fill, ← equal, found, later]
  | case2 name rest found induction =>
      have equal := same name ⟨[], rest, rfl⟩
      have later := induction fun name inside => same name
        (inside.trans (List.suffix_cons _ _).isInfix)
      simp only [fill, ← equal, found] at later ⊢
      rw [later]
  | case3 head rest plain induction =>
      have later := induction fun name inside => same name
        (inside.trans (List.suffix_cons _ _).isInfix)
      rw [fill_cons, later]
      rintro rfl name tail rfl
      exact absurd rfl (plain name tail rfl)
  | case4 => rfl

/-- A filled text which begins with a letter begins as the text does. -/
theorem cons_of_fill_cons (filled : fill value text = head :: rest)
    (letter : head.isDigit = false) :
    ∃ later, text = head :: later ∧ fill value later = rest := by
  fun_induction fill value text with
  | case1 name later number found induction =>
      obtain ⟨first, others, same⟩ :=
        List.exists_cons_of_ne_nil (digits_ne_nil number)
      rw [same] at filled
      obtain ⟨rfl, _⟩ := List.cons.inj filled
      have digit : first ∈ digits number := by
        rw [same]
        exact List.mem_cons_self
      rw [isDigit_of_mem_digits digit] at letter
      contradiction
  | case2 name later found induction =>
      obtain ⟨rfl, tails⟩ := List.cons.inj filled
      exact ⟨_, rfl, tails⟩
  | case3 first later plain induction =>
      obtain ⟨rfl, tails⟩ := List.cons.inj filled
      exact ⟨_, rfl, tails⟩
  | case4 => contradiction

end Fill

/-! ## One placeholder after the other -/

section Replace

variable {first : Char} {pattern replacement before text : List Char}

theorem replaceFrom_skip (skipped : Nat) :
    replaceFrom pattern replacement skipped text =
      replaceFrom pattern replacement 0 (text.drop skipped) := by
  induction skipped generalizing text with
  | zero => rw [List.drop_zero]
  | succ skipped induction =>
      cases text with
      | nil => rfl
      | cons head tail =>
          rw [replaceFrom, induction, List.drop_succ_cons]

/-- A text in which the pattern cannot begin stays. -/
theorem replaceFrom_append (free : first ∉ before) :
    replaceFrom (first :: pattern) replacement 0 (before ++ text) =
      before ++ replaceFrom (first :: pattern) replacement 0 text := by
  induction before with
  | nil => rfl
  | cons head tail induction =>
      rw [List.mem_cons, not_or] at free
      obtain ⟨different, later⟩ := free
      have elsewhere : ¬ first :: pattern <+: head :: (tail ++ text) :=
        fun begins => different (List.cons_prefix_cons.mp begins).1
      rw [List.cons_append, replaceFrom, if_neg elsewhere, induction later]
      rfl

variable {value : Char → Option Nat} {name : Char} {number : Nat}

/-- Replacing a placeholder in a filled text fills it. -/
theorem replaceFrom_fill (named : IsName name)
    (fresh : value name = none) :
    replaceFrom ['{', name, '}'] (digits number) 0 (fill value text) =
      fill (Function.update value name (some number)) text := by
  obtain ⟨noDigit, brace, _⟩ := named
  fun_induction fill value text with
  | case1 other rest found known induction =>
      have different : other ≠ name := by
        rintro rfl
        rw [fresh] at known
        contradiction
      have free : '{' ∉ digits found := fun member =>
        absurd (isDigit_of_mem_digits member) (by decide)
      rw [replaceFrom_append free, induction, fill,
        Function.update_of_ne different, known]
  | case2 other rest unknown induction =>
      by_cases same : other = name
      · subst same
        have filled : fill value (other :: '}' :: rest) =
            other :: '}' :: fill value rest := by
          rw [fill_cons_of_ne brace, fill_cons_of_ne (by decide)]
        have filledLater :
            fill (Function.update value other (some number))
              (other :: '}' :: rest) = other :: '}' ::
                fill (Function.update value other (some number)) rest := by
          rw [fill_cons_of_ne brace, fill_cons_of_ne (by decide)]
        have free : '{' ∉ [other, '}'] := by
          simp [brace.symm]
        have tail : replaceFrom ['{', other, '}'] (digits number) 0
            (fill value rest) =
              fill (Function.update value other (some number)) rest := by
          rw [filled, filledLater] at induction
          have moved := (replaceFrom_append free).symm.trans induction
          exact List.append_cancel_left moved
        rw [filled, replaceFrom, if_pos ⟨fill value rest, rfl⟩,
          replaceFrom_skip, fill, Function.update_self]
        exact congrArg (digits number ++ ·) tail
      · have elsewhere : ¬ ['{', name, '}'] <+:
            '{' :: fill value (other :: '}' :: rest) := by
          rintro ⟨tail, begins⟩
          obtain ⟨_, begins⟩ := List.cons.inj begins
          obtain ⟨_, heads, _⟩ := cons_of_fill_cons begins.symm noDigit
          exact same (List.cons.inj heads).1
        rw [replaceFrom, if_neg elsewhere, induction, fill,
          Function.update_of_ne same, unknown]
  | case3 head rest plain induction =>
      have elsewhere : ¬ ['{', name, '}'] <+: head :: fill value rest := by
        rintro ⟨tail, same⟩
        obtain ⟨rfl, begins⟩ := List.cons.inj same
        obtain ⟨later, rfl, filled⟩ := cons_of_fill_cons begins.symm noDigit
        obtain ⟨tail, rfl, _⟩ := cons_of_fill_cons filled (by decide)
        exact plain name tail rfl rfl
      rw [replaceFrom, if_neg elsewhere, induction, fill_cons]
      rintro rfl other later rfl
      exact absurd rfl (plain other later rfl)
  | case4 => rfl

theorem replace_fill (named : IsName name) (fresh : value name = none) :
    replace (String.ofList (fill value text))
        (String.ofList ['{', name, '}']) number.repr =
      String.ofList (fill (Function.update value name (some number)) text) := by
  unfold replace
  rw [String.toList_ofList, String.toList_ofList]
  exact congrArg String.ofList (replaceFrom_fill named fresh)

end Replace

/-! ## Different numbers -/

/-- A placeholder begins a text or is in what follows the first character. -/
theorem Mentions.of_cons {name head : Char} {text : List Char}
    (mentions : Mentions name (head :: text)) :
    (head = '{' ∧ ∃ later, text = name :: '}' :: later) ∨
      Mentions name text := by
  rcases List.infix_cons_iff.mp mentions with ⟨later, begins⟩ | inside
  · obtain ⟨rfl, rest⟩ := List.cons.inj begins
    exact .inl ⟨rfl, later, rest.symm⟩
  · exact .inr inside

section Different

variable {value : Char → Option Nat} {name : Char} {left right : Nat}
  {text : List Char}

theorem length_fill_le
    (shorter : (digits left).length ≤ (digits right).length) :
    (fill (Function.update value name (some left)) text).length ≤
      (fill (Function.update value name (some right)) text).length := by
  fun_induction fill (Function.update value name (some left)) text with
  | case1 other rest number known induction =>
      by_cases same : other = name
      · subst same
        rw [Function.update_self, Option.some.injEq] at known
        subst known
        simp only [fill, Function.update_self, List.length_append]
        omega
      · rw [Function.update_of_ne same] at known
        simp only [fill, Function.update_of_ne same, known,
          List.length_append]
        omega
  | case2 other rest unknown induction =>
      by_cases same : other = name
      · subst same
        rw [Function.update_self] at unknown
        contradiction
      · rw [Function.update_of_ne same] at unknown
        simp only [fill, Function.update_of_ne same, unknown,
          List.length_cons] at induction ⊢
        omega
  | case3 head rest plain induction =>
      rw [fill_cons]
      · exact Nat.succ_le_succ induction
      · rintro rfl other later rfl
        exact absurd rfl (plain other later rfl)
  | case4 => exact Nat.le_refl _

theorem length_digits_eq
    (same : digits left ++ fill (Function.update value name (some left)) text =
      digits right ++ fill (Function.update value name (some right)) text) :
    (digits left).length = (digits right).length := by
  have lengths := congrArg List.length same
  rw [List.length_append, List.length_append] at lengths
  -- A longer number cannot be made up for by a shorter rest.
  rcases Nat.le_total (digits left).length (digits right).length
    with shorter | shorter
  · have rest : (fill (Function.update value name (some left)) text).length ≤
        (fill (Function.update value name (some right)) text).length :=
      length_fill_le shorter
    omega
  · have rest : (fill (Function.update value name (some right)) text).length ≤
        (fill (Function.update value name (some left)) text).length :=
      length_fill_le shorter
    omega

/-- A text which has the placeholder tells the numbers in its place apart. -/
theorem eq_of_fill_eq (named : IsName name)
    (mentions : Mentions name text)
    (same : fill (Function.update value name (some left)) text =
      fill (Function.update value name (some right)) text) :
    left = right := by
  obtain ⟨_, opens, closes⟩ := named
  fun_induction fill (Function.update value name (some left)) text with
  | case1 other rest number known induction =>
      by_cases here : other = name
      · subst here
        rw [Function.update_self, Option.some.injEq] at known
        subst known
        rw [fill, Function.update_self] at same
        exact digits_inj (List.append_inj_left same (length_digits_eq same))
      · rw [Function.update_of_ne here] at known
        simp only [fill, Function.update_of_ne here, known] at same
        apply induction _ (List.append_cancel_left same)
        rcases mentions.of_cons with ⟨_, later, heads⟩ | mentions
        · exact absurd (List.cons.inj heads).1 here
        · rcases mentions.of_cons with ⟨rfl, later, heads⟩ | mentions
          · exact absurd (List.cons.inj heads).1.symm closes
          · rcases mentions.of_cons with ⟨brace, _⟩ | mentions
            · contradiction
            · exact mentions
  | case2 other rest unknown induction =>
      by_cases here : other = name
      · subst here
        rw [Function.update_self] at unknown
        contradiction
      · rw [Function.update_of_ne here] at unknown
        simp only [fill, Function.update_of_ne here, unknown] at same induction
        apply induction _ (List.cons.inj same).2
        rcases mentions.of_cons with ⟨_, later, heads⟩ | mentions
        · exact absurd (List.cons.inj heads).1 here
        · exact mentions
  | case3 head rest plain induction =>
      rw [fill_cons] at same
      · apply induction _ (List.cons.inj same).2
        rcases mentions.of_cons with ⟨rfl, later, rfl⟩ | mentions
        · exact absurd rfl (plain name later rfl)
        · exact mentions
      · rintro rfl other later rfl
        exact absurd rfl (plain other later rfl)
  | case4 =>
      have empty := List.infix_nil.mp mentions
      contradiction

end Different

end Library.Placeholder
