import Mathlib.Algebra.Order.Group.Nat
import Mathlib.Data.Nat.Log
import Mathlib.Tactic.Ring

/-!
# Doubles with an integral value

The numbers of ECMAScript which come about from decimal digits, differences
and bounds: integers rounded to a double, to the nearest and in a tie to the
even one, the infinities and the value which is no number.
-/

namespace Library.Doubles

/-- The double nearest to a natural number, whatever its exponent. -/
def roundMagnitude (value : Nat) : Nat :=
  let unit := 2 ^ (value.log2 - 52)
  let lower := value / unit
  let rest := value % unit
  if unit < 2 * rest ∨ (unit = 2 * rest ∧ lower % 2 = 1) then
    (lower + 1) * unit
  else
    lower * unit

/-- The least integer with a neighbour which is no double. -/
def unsafeFrom : Nat := 2 ^ 53

/-- The least power of two which is no double. -/
def overflowFrom : Nat := 2 ^ 1024

theorem unsafeFrom_lt_overflowFrom : unsafeFrom < overflowFrom := by
  unfold unsafeFrom overflowFrom
  apply Nat.pow_lt_pow_right
  · decide
  · decide

inductive Double where
  | finite (value : Int)
  | infinity (negative : Bool)
  | nan
deriving DecidableEq, Repr

namespace Double

def ofInt (value : Int) : Double :=
  let rounded := roundMagnitude value.natAbs
  if rounded < overflowFrom then
    .finite (if value < 0 then -(rounded : Int) else rounded)
  else
    .infinity (decide (value < 0))

/-- `Number` of a text of digits. -/
def ofDigits (text : List Char) : Double :=
  ofInt (Nat.ofDigitChars 10 text 0)

def sub : Double → Double → Double
  | .nan, _ => .nan
  | _, .nan => .nan
  | .finite left, .finite right => ofInt (left - right)
  | .finite _, .infinity negative => .infinity (!negative)
  | .infinity negative, .finite _ => .infinity negative
  | .infinity left, .infinity right =>
      if left = right then .nan else .infinity left

def add : Double → Double → Double
  | .nan, _ => .nan
  | _, .nan => .nan
  | .finite left, .finite right => ofInt (left + right)
  | .finite _, .infinity negative => .infinity negative
  | .infinity negative, .finite _ => .infinity negative
  | .infinity left, .infinity right =>
      if left = right then .infinity left else .nan

/-- `<`, which is false of what is no number. -/
def lt : Double → Double → Bool
  | .nan, _ => false
  | _, .nan => false
  | .finite left, .finite right => decide (left < right)
  | .finite _, .infinity negative => !negative
  | .infinity negative, .finite _ => negative
  | .infinity left, .infinity right => left && !right

/-- `>=`. -/
def ge (left right : Double) : Bool :=
  lt right left || (left == right && left != .nan)

/-- `Number.isSafeInteger`. -/
def isSafeInteger : Double → Bool
  | .finite value => decide (value.natAbs < unsafeFrom)
  | _ => false

/-- `Math.max`. -/
def max (left right : Double) : Double :=
  if left = .nan ∨ right = .nan then .nan
  else if lt left right then right else left

/-- `Math.min`. -/
def min (left right : Double) : Double :=
  if left = .nan ∨ right = .nan then .nan
  else if lt right left then right else left

end Double

section Rounding

variable {value : Nat}

theorem roundMagnitude_of_lt (safe : value < unsafeFrom) :
    roundMagnitude value = value := by
  have small : value.log2 - 52 = 0 := by
    rcases Nat.eq_zero_or_pos value with zero | positive
    · rw [zero]
      rfl
    · have log : value.log2 < 53 := (Nat.log2_lt (by omega)).mpr safe
      omega
  unfold roundMagnitude
  rw [small]
  simp [Nat.mod_one]

theorem le_roundMagnitude (large : unsafeFrom ≤ value) :
    unsafeFrom ≤ roundMagnitude value := by
  have nonzero : value ≠ 0 := by
    rintro rfl
    exact absurd large (by decide)
  have log : 53 ≤ value.log2 := (Nat.le_log2 nonzero).mpr large
  have whole : 2 ^ 52 * 2 ^ (value.log2 - 52) = 2 ^ value.log2 := by
    rw [← pow_add]
    congr 1
    omega
  have positive : 0 < 2 ^ (value.log2 - 52) := Nat.two_pow_pos _
  have lower : 2 ^ 52 ≤ value / 2 ^ (value.log2 - 52) := by
    rw [Nat.le_div_iff_mul_le positive, whole]
    exact Nat.log2_self_le nonzero
  have scaled : 2 ^ 53 ≤ value / 2 ^ (value.log2 - 52) *
      2 ^ (value.log2 - 52) := by
    calc
      2 ^ 53 ≤ 2 ^ value.log2 := Nat.pow_le_pow_right (by omega) log
      _ = 2 ^ 52 * 2 ^ (value.log2 - 52) := whole.symm
      _ ≤ _ := Nat.mul_le_mul_right _ lower
  unfold roundMagnitude unsafeFrom
  dsimp only
  split
  · exact scaled.trans (Nat.mul_le_mul_right _ (Nat.le_succ _))
  · exact scaled

end Rounding

namespace Double

theorem ofInt_of_safe {value : Int} (safe : value.natAbs < unsafeFrom) :
    ofInt value = .finite value := by
  have bound : value.natAbs < overflowFrom :=
    safe.trans unsafeFrom_lt_overflowFrom
  unfold ofInt
  rw [roundMagnitude_of_lt safe]
  dsimp only
  rw [if_pos bound]
  congr 1
  split <;> omega

/-- What becomes of an integer from `unsafeFrom` on. -/
theorem ofInt_of_large {value : Int} (large : (unsafeFrom : Int) ≤ value) :
    ofInt value = .infinity false ∨
      ∃ rounded : Int, ofInt value = .finite rounded ∧
        (unsafeFrom : Int) ≤ rounded := by
  have magnitude : unsafeFrom ≤ roundMagnitude value.natAbs :=
    le_roundMagnitude (by omega)
  have positive : ¬value < 0 := by omega
  unfold ofInt
  dsimp only
  rw [if_neg positive, decide_eq_false positive]
  split
  · exact .inr ⟨_, rfl, by omega⟩
  · exact .inl rfl

/-- The sign is never lost. -/
theorem ofInt_of_neg {value : Int} (negative : value < 0) :
    ofInt value = .infinity true ∨
      ∃ rounded : Int, ofInt value = .finite rounded ∧ rounded ≤ 0 := by
  unfold ofInt
  dsimp only
  rw [if_pos negative, decide_eq_true negative]
  split
  · exact .inr ⟨_, rfl, by omega⟩
  · exact .inl rfl

theorem ofInt_ne_nan (value : Int) : ofInt value ≠ .nan := by
  unfold ofInt
  dsimp only
  split <;> exact Double.noConfusion

/-! Beside a safe integer, a rounded natural number compares like the number
itself. -/

section Safe

variable {safe value : Int}

theorem finite_lt_ofInt (small : safe.natAbs < unsafeFrom)
    (natural : 0 ≤ value) :
    lt (.finite safe) (ofInt value) = decide (safe < value) := by
  by_cases large : (unsafeFrom : Int) ≤ value
  · have below : safe < value := by omega
    rw [decide_eq_true below]
    obtain same | ⟨rounded, same, above⟩ := ofInt_of_large large
    · rw [same]
      rfl
    · rw [same, lt, decide_eq_true_iff]
      omega
  · rw [ofInt_of_safe (by omega), lt]

theorem ofInt_eq_finite (small : safe.natAbs < unsafeFrom)
    (natural : 0 ≤ value) : ofInt value = .finite safe ↔ value = safe := by
  by_cases large : (unsafeFrom : Int) ≤ value
  · obtain same | ⟨rounded, same, above⟩ := ofInt_of_large large
    · rw [same]
      constructor
      · intro impossible
        cases impossible
      · intro equal
        omega
    · rw [same, finite.injEq]
      omega
  · rw [ofInt_of_safe (by omega), finite.injEq]

theorem ofInt_ge_finite (small : safe.natAbs < unsafeFrom)
    (natural : 0 ≤ value) :
    ge (ofInt value) (.finite safe) = decide (safe ≤ value) := by
  unfold ge
  rw [finite_lt_ofInt small natural, Bool.eq_iff_iff]
  simp only [Bool.or_eq_true, Bool.and_eq_true, decide_eq_true_eq,
    beq_iff_eq, bne_iff_ne, ofInt_eq_finite small natural]
  constructor
  · intro either
    omega
  · intro bound
    rcases bound.lt_or_eq with below | equal
    · exact .inl below
    · exact .inr ⟨equal.symm, ofInt_ne_nan value⟩

theorem min_ofInt (small : safe.natAbs < unsafeFrom) (natural : 0 ≤ value) :
    min (ofInt value) (.finite safe) = .finite (Min.min value safe) := by
  unfold min
  rw [if_neg (by simp [ofInt_ne_nan]), finite_lt_ofInt small natural]
  by_cases below : safe < value
  · rw [if_pos (decide_eq_true below), Int.min_eq_right below.le]
  · rw [if_neg (by simpa using below), ofInt_of_safe (by omega),
      Int.min_eq_left (by omega)]

theorem max_zero_finite : max (.finite 0) (.finite value) =
    .finite (Max.max 0 value) := by
  have numbers : ¬((.finite 0 : Double) = .nan ∨
      (.finite value : Double) = .nan) := by
    simp
  unfold max
  rw [if_neg numbers, lt]
  by_cases positive : 0 < value
  · rw [if_pos (decide_eq_true positive), Int.max_eq_right positive.le]
  · rw [if_neg (by simpa using positive), Int.max_eq_left (by omega)]

theorem max_zero_ofInt_of_neg (negative : value < 0) :
    max (.finite 0) (ofInt value) = .finite 0 := by
  obtain same | ⟨rounded, same, below⟩ := ofInt_of_neg negative
  · rw [same]
    rfl
  · rw [same, max_zero_finite, Int.max_eq_left below]

theorem isSafeInteger_ofInt (natural : 0 ≤ value) :
    isSafeInteger (ofInt value) = decide (value.natAbs < unsafeFrom) := by
  by_cases large : (unsafeFrom : Int) ≤ value
  · have unsafeValue : ¬value.natAbs < unsafeFrom := by omega
    rw [decide_eq_false unsafeValue]
    obtain same | ⟨rounded, same, above⟩ := ofInt_of_large large
    · rw [same]
      rfl
    · rw [same, isSafeInteger, decide_eq_false_iff_not]
      omega
  · rw [ofInt_of_safe (by omega), isSafeInteger]

/-- What is left of a safe natural number, but no less than nothing. -/
theorem max_sub_ofInt (small : safe.natAbs < unsafeFrom)
    (positive : 0 ≤ safe) (natural : 0 ≤ value) :
    max (.finite 0) (sub (.finite safe) (ofInt value)) =
      .finite (Max.max 0 (safe - value)) := by
  by_cases large : (unsafeFrom : Int) ≤ value
  · rw [Int.max_eq_left (by omega)]
    obtain same | ⟨rounded, same, above⟩ := ofInt_of_large large
    · rw [same]
      rfl
    · rw [same, sub]
      exact max_zero_ofInt_of_neg (by omega)
  · rw [ofInt_of_safe (by omega), sub, ofInt_of_safe (by omega),
      max_zero_finite]

end Safe

end Double

end Library.Doubles
