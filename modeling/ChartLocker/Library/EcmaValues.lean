import ChartLocker.Library.Trimming
import Mathlib.Algebra.Order.Ring.Rat

/-!
# Values of ECMAScript

The values which `JSON.parse` gives, and how programs narrow them.  A string
is a list of UTF-16 code units.  A finite number is a rational, so that the
two zeros are equal.  `undefined` is `none`.
-/

namespace Library

namespace Ecma

open Trimming

/-! ## Strings -/

abbrev Text : Type := List UInt16

/-- The code units of a text. -/
def utf16 (text : String) : Text :=
  text.toList.flatMap fun char =>
    if char.toNat < 0x10000 then
      [UInt16.ofNat char.toNat]
    else
      [UInt16.ofNat (0xd800 + (char.toNat - 0x10000) / 0x400),
        UInt16.ofNat (0xdc00 + (char.toNat - 0x10000) % 0x400)]

/-- No white space lies outside the basic plane. -/
def isWhiteUnit (unit : UInt16) : Bool :=
  isEcmaWhite (Char.ofNat unit.toNat)

/-- `String.prototype.trim`. -/
def trim (text : Text) : Text :=
  trimBy isWhiteUnit text

@[simp] theorem trim_trim (text : Text) : trim (trim text) = trim text :=
  trimBy_trimBy isWhiteUnit text

/-! ## Values -/

inductive Number where
  | finite (value : ℚ)
  | infinity (negative : Bool)
deriving DecidableEq, Repr

/-- The name of a member which is no Unicode text is left out: it is none of
the names which a program looks for. -/
inductive Value where
  | null
  | bool (value : Bool)
  | number (value : Number)
  | string (value : Text)
  | array (values : List Value)
  | object (members : List (String × Value))

namespace Value

/-- A member of an object, the last one of its name.  Nothing else has
members of the names which are looked for. -/
def get (value : Value) (name : String) : Option Value :=
  match value with
  | .object members =>
      (members.reverse.find? fun member => member.1 = name).map Prod.snd
  | _ => none

def isObject : Value → Bool
  | .object _ => true
  | _ => false

@[simp] theorem get_object (members : List (String × Value)) (name : String) :
    get (.object members) name =
      (members.reverse.find? fun member => member.1 = name).map Prod.snd :=
  rfl

/-- A rational as a value. -/
def ofRat (value : ℚ) : Value :=
  .number (.finite value)

end Value

/-! ## Narrowing -/

def asBool : Option Value → Option Bool
  | some (.bool value) => some value
  | _ => none

def asText : Option Value → Option Text
  | some (.string value) => some value
  | _ => none

/-- `typeof value === 'number' && Number.isFinite(value)`. -/
def asFinite : Option Value → Option ℚ
  | some (.number (.finite value)) => some value
  | _ => none

def finiteBetween (low high : ℚ) (value : Option Value) : Option ℚ :=
  (asFinite value).filter fun number =>
    decide (low ≤ number) && decide (number ≤ high)

/-- With `Number.isInteger`. -/
def integerBetween (low high : ℚ) (value : Option Value) : Option ℚ :=
  (finiteBetween low high value).filter Rat.isInt

theorem finiteBetween_ofRat {low high number : ℚ} :
    finiteBetween low high (some (.ofRat number)) = some number ↔
      low ≤ number ∧ number ≤ high := by
  simp [finiteBetween, asFinite, Value.ofRat, Option.filter_some]

theorem finiteBetween_bounds {low high number : ℚ} {value : Option Value}
    (found : finiteBetween low high value = some number) :
    low ≤ number ∧ number ≤ high := by
  have holds := (Option.filter_eq_some_iff.mp found).2
  simpa using holds

theorem integerBetween_ofRat {low high number : ℚ} :
    integerBetween low high (some (.ofRat number)) = some number ↔
      (low ≤ number ∧ number ≤ high) ∧ number.isInt = true := by
  unfold integerBetween
  rw [Option.filter_eq_some_iff, finiteBetween_ofRat]

theorem integerBetween_spec {low high number : ℚ} {value : Option Value}
    (found : integerBetween low high value = some number) :
    (low ≤ number ∧ number ≤ high) ∧ number.isInt = true := by
  obtain ⟨between, whole⟩ := Option.filter_eq_some_iff.mp found
  exact ⟨finiteBetween_bounds between, whole⟩

end Ecma

end Library
