import Mathlib.Order.Lattice
import Mathlib.Order.Nat

/-!
# Byte ranges

A byte range of a range request, which names the first and last position, a
first position, or how many of the last bytes are wanted.
-/

namespace Library

/-- A number as it is written, with as many digits as one likes. -/
structure Digits where
  text : List Char
  nonempty : text ≠ []
  legal : text.all Char.isDigit = true

def Digits.value (digits : Digits) : ℕ :=
  Nat.ofDigitChars 10 digits.text 0

inductive ByteRange where
  | onward (first : Digits)
  | between (first last : Digits)
  | suffix (length : Digits)

namespace ByteRange

def text : ByteRange → List Char
  | .onward first => first.text ++ ['-']
  | .between first last => first.text ++ '-' :: last.text
  | .suffix length => '-' :: length.text

/-- The range asks for this position of a representation of this size. -/
def Requests (range : ByteRange) (size position : ℕ) : Prop :=
  match range with
  | .onward first => first.value ≤ position
  | .between first last => first.value ≤ position ∧ position ≤ last.value
  | .suffix length => size ≤ position + length.value

/-- The requested bytes which the representation has. -/
def Selects (range : ByteRange) (size position : ℕ) : Prop :=
  position < size ∧ range.Requests size position

/-- The first and the last of the selected bytes. -/
def clip (range : ByteRange) (size : ℕ) : Option (ℕ × ℕ) :=
  match range with
  | .onward first =>
      if first.value < size then some (first.value, size - 1) else none
  | .between first last =>
      if first.value ≤ last.value ∧ first.value < size then
        some (first.value, min last.value (size - 1))
      else
        none
  | .suffix length =>
      if 0 < length.value ∧ 0 < size then
        some (size - length.value, size - 1)
      else
        none

section Clip

variable {range : ByteRange} {size start final : ℕ}

theorem selects_iff_of_clip (clipped : range.clip size = some (start, final))
    (position : ℕ) :
    range.Selects size position ↔ start ≤ position ∧ position ≤ final := by
  cases range with
  | onward first =>
      obtain ⟨inside, same⟩ := Option.ite_none_right_eq_some.mp clipped
      cases same
      simp only [Selects, Requests]
      omega
  | between first last =>
      obtain ⟨inside, same⟩ := Option.ite_none_right_eq_some.mp clipped
      cases same
      simp only [Selects, Requests]
      omega
  | suffix length =>
      obtain ⟨inside, same⟩ := Option.ite_none_right_eq_some.mp clipped
      cases same
      simp only [Selects, Requests]
      omega

theorem bounds_of_clip (clipped : range.clip size = some (start, final)) :
    start ≤ final ∧ final < size := by
  cases range with
  | onward first =>
      obtain ⟨inside, same⟩ := Option.ite_none_right_eq_some.mp clipped
      cases same
      omega
  | between first last =>
      obtain ⟨inside, same⟩ := Option.ite_none_right_eq_some.mp clipped
      cases same
      omega
  | suffix length =>
      obtain ⟨inside, same⟩ := Option.ite_none_right_eq_some.mp clipped
      cases same
      omega

theorem clip_eq_none_iff :
    range.clip size = none ↔ ∀ position, ¬range.Selects size position := by
  constructor
  · intro clipped position selected
    obtain ⟨inside, wanted⟩ := selected
    cases range with
    | onward first =>
        simp only [clip, ite_eq_right_iff, reduceCtorEq, imp_false] at clipped
        simp only [Requests] at wanted
        omega
    | between first last =>
        simp only [clip, ite_eq_right_iff, reduceCtorEq, imp_false] at clipped
        simp only [Requests] at wanted
        omega
    | suffix length =>
        simp only [clip, ite_eq_right_iff, reduceCtorEq, imp_false] at clipped
        simp only [Requests] at wanted
        omega
  · intro nothing
    rcases clipped : range.clip size with _ | ⟨start, final⟩
    · rfl
    · have bounds := bounds_of_clip clipped
      have first := (selects_iff_of_clip clipped start).mpr
        ⟨le_refl start, bounds.1⟩
      exact absurd first (nothing start)

end Clip

end ByteRange

/-- A value of a range header with a single byte range.  The names of range
units are not case-sensitive. -/
def IsByteRanges (text : List Char) : Prop :=
  ∃ unit : List Char, ∃ range : ByteRange,
    unit.map Char.toLower = "bytes".toList ∧
    text = unit ++ '=' :: range.text

end Library
