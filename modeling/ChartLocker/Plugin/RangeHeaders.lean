import ChartLocker.Library.ByteRange
import ChartLocker.Library.Doubles
import ChartLocker.Library.Trimming
import Mathlib.Data.List.Basic

/-!
# The range header of the archive route

`parseRange` reads the header of a range request.  Its numbers are doubles,
which round a long number or make it infinite, but beside the size of a file,
a safe integer, no bound comes out wrong.
-/

namespace ChartLocker.Plugin.PmtilesRoutes

open Library Doubles Trimming

inductive ParsedRange where
  | satisfiable (start final : Double)
  | unsatisfiable
deriving DecidableEq, Repr

/-- `/^bytes=(\d*)-(\d*)$/`. -/
def rangeFields (text : List Char) : Option (List Char × List Char) :=
  (text.dropPrefix? "bytes=".toList).bind fun rest =>
    match rest.dropWhile Char.isDigit with
    | '-' :: last =>
        if last.all Char.isDigit then
          some (rest.takeWhile Char.isDigit, last)
        else
          none
    | _ => none

/-- The end of `parseRange`. -/
def withinSize (size start final : Double) : ParsedRange :=
  if Double.lt final start || Double.ge start size then
    .unsatisfiable
  else
    .satisfiable start final

/-- `parseRange` from the captured groups on. -/
def rangeOfFields (size : Double) (rawStart rawEnd : List Char) :
    Option ParsedRange :=
  let lastByte := Double.sub size (.finite 1)
  if rawStart = [] ∧ rawEnd = [] then
    none
  else if rawStart = [] then
    let suffix := Double.ofDigits rawEnd
    if suffix = .finite 0 then
      some .unsatisfiable
    else
      some (withinSize size
        (Double.max (.finite 0) (Double.sub size suffix)) lastByte)
  else
    let final := if rawEnd = [] then lastByte
      else Double.min (Double.ofDigits rawEnd) lastByte
    some (withinSize size (Double.ofDigits rawStart) final)

def parseRange (raw : Option (List Char)) (size : Double) :
    Option ParsedRange :=
  match raw with
  | none => none
  | some raw =>
      if raw = [] then
        none
      else
        (rangeFields (ecmaTrim raw)).bind fun fields =>
          rangeOfFields size fields.1 fields.2

/-! ## What is parsed -/

/-- A byte range as `parseRange` wants it: the unit in lower case, and white
space around the value only. -/
def IsLiteralRange (raw : List Char) (range : ByteRange) : Prop :=
  ∃ before after, before.all isEcmaWhite = true ∧
    after.all isEcmaWhite = true ∧
    raw = before ++ ("bytes=".toList ++ range.text) ++ after

theorem isEcmaWhite_of_isDigit {char : Char} (digit : char.isDigit = true) :
    isEcmaWhite char = false := by
  unfold Char.isDigit at digit
  simp only [ge_iff_le, Bool.and_eq_true, decide_eq_true_eq] at digit
  have low : 0x30 ≤ char.toNat := digit.1
  have high : char.toNat ≤ 0x39 := digit.2
  unfold isEcmaWhite
  simp only [List.contains_eq_mem, List.mem_cons, List.not_mem_nil, or_false,
    Bool.or_eq_false_iff, decide_eq_false_iff_not]
  omega

/-- Which fields a range has. -/
def fieldsOf : ByteRange → List Char × List Char
  | .onward first => (first.text, [])
  | .between first last => (first.text, last.text)
  | .suffix length => ([], length.text)

theorem text_eq_fields (range : ByteRange) :
    range.text = (fieldsOf range).1 ++ '-' :: (fieldsOf range).2 := by
  cases range with
  | onward first => rfl
  | between first last => rfl
  | suffix length => rfl

theorem all_isDigit_fieldsOf (range : ByteRange) :
    (fieldsOf range).1.all Char.isDigit = true ∧
      (fieldsOf range).2.all Char.isDigit = true := by
  cases range with
  | onward first => exact ⟨first.legal, rfl⟩
  | between first last => exact ⟨first.legal, last.legal⟩
  | suffix length => exact ⟨rfl, length.legal⟩

theorem exists_fieldsOf {first last : List Char}
    (some_digit : ¬(first = [] ∧ last = []))
    (legalFirst : first.all Char.isDigit = true)
    (legalLast : last.all Char.isDigit = true) :
    ∃ range, fieldsOf range = (first, last) := by
  by_cases noFirst : first = []
  · have suffix : last ≠ [] := fun noLast => some_digit ⟨noFirst, noLast⟩
    exact ⟨.suffix ⟨last, suffix, legalLast⟩, by rw [noFirst]; rfl⟩
  · by_cases noLast : last = []
    · exact ⟨.onward ⟨first, noFirst, legalFirst⟩, by rw [noLast]; rfl⟩
    · exact ⟨.between ⟨first, noFirst, legalFirst⟩ ⟨last, noLast, legalLast⟩,
        rfl⟩

theorem rangeFields_eq_some {text first last : List Char} :
    rangeFields text = some (first, last) ↔
      text = "bytes=".toList ++ (first ++ '-' :: last) ∧
        first.all Char.isDigit = true ∧ last.all Char.isDigit = true := by
  have hyphen : ¬Char.isDigit '-' = true := by decide
  unfold rangeFields
  constructor
  · intro fields
    obtain ⟨rest, front, fields⟩ := Option.bind_eq_some_iff.mp fields
    split at fields
    · next behind dropped =>
        obtain ⟨legal, same⟩ := Option.ite_none_right_eq_some.mp fields
        cases same
        refine ⟨?_, List.all_takeWhile, legal⟩
        rw [← dropped, List.takeWhile_append_dropWhile]
        obtain ⟨unit, whole, same⟩ := List.dropPrefix?_eq_some_iff.mp front
        rw [whole, eq_of_beq same]
    · cases fields
  · intro ⟨whole, legalFirst, legalLast⟩
    have digits := List.all_eq_true.mp legalFirst
    rw [whole, List.dropPrefix?_append_of_beq _ (BEq.refl _),
      Option.bind_some, List.dropWhile_append_of_pos digits,
      List.dropWhile_cons_of_neg hyphen]
    change (if last.all Char.isDigit = true then some
      ((first ++ '-' :: last).takeWhile Char.isDigit, last) else none) = _
    rw [if_pos legalLast, List.takeWhile_append_of_pos digits,
      List.takeWhile_cons_of_neg hyphen, List.append_nil]

/-- The trimmed value of a literal range. -/
theorem ecmaTrim_eq_iff {raw : List Char} (range : ByteRange) :
    ecmaTrim raw = "bytes=".toList ++ range.text ↔
      IsLiteralRange raw range := by
  apply trimBy_eq_iff
  apply bare_of_forall
  intro letter member
  rcases List.mem_append.mp member with unit | member
  · have plain :
        "bytes=".toList.all (fun char => !isEcmaWhite char) = true := by
      decide
    simpa using List.all_eq_true.mp plain letter unit
  · have digits := all_isDigit_fieldsOf range
    rw [text_eq_fields, List.mem_append, List.mem_cons] at member
    rcases member with first | rfl | last
    · exact isEcmaWhite_of_isDigit (List.all_eq_true.mp digits.1 letter first)
    · decide
    · exact isEcmaWhite_of_isDigit (List.all_eq_true.mp digits.2 letter last)

/-! ## The bounds -/

def ofClip : Option (ℕ × ℕ) → ParsedRange
  | none => .unsatisfiable
  | some bounds => .satisfiable (.finite bounds.1) (.finite bounds.2)

section Bounds

variable {size : ℕ} (safe : size < unsafeFrom)
include safe

theorem withinSize_eq {start : ℕ} {final : Int} (below : final < size)
    (above : -1 ≤ final) :
    withinSize (.finite size) (Double.ofInt start) (.finite final) =
      if (start : Int) ≤ final then
        .satisfiable (.finite start) (.finite final)
      else
        .unsatisfiable := by
  have wide : (1 : ℕ) < unsafeFrom := by decide
  unfold withinSize
  rw [Double.finite_lt_ofInt (by omega) (by omega),
    Double.ofInt_ge_finite (by omega) (by omega), ← Bool.decide_or]
  by_cases within : (start : Int) ≤ final
  · rw [if_pos within, if_neg (by rw [decide_eq_true_eq]; omega),
      Double.ofInt_of_safe (by omega)]
  · rw [if_neg within, if_pos (by rw [decide_eq_true_eq]; omega)]

theorem sub_one : Double.sub (.finite size) (.finite 1) =
    .finite ((size : Int) - 1) := by
  have wide : (1 : ℕ) < unsafeFrom := by decide
  rw [Double.sub, Double.ofInt_of_safe (by omega)]

theorem withinSize_lastByte {start : ℕ} :
    withinSize (.finite size) (Double.ofInt start)
        (.finite ((size : Int) - 1)) =
      if start < size then
        .satisfiable (.finite start) (.finite (size - 1 : ℕ))
      else
        .unsatisfiable := by
  rw [withinSize_eq safe (by omega) (by omega)]
  by_cases inside : start < size
  · have last : ((size - 1 : ℕ) : Int) = (size : Int) - 1 := by omega
    rw [if_pos inside, if_pos (by omega), last]
  · rw [if_neg inside, if_neg (by omega)]

theorem rangeOfFields_onward (first : Digits) :
    rangeOfFields (.finite size) first.text [] =
      some (ofClip ((ByteRange.onward first).clip size)) := by
  unfold rangeOfFields ByteRange.clip
  rw [if_neg fun empty => first.nonempty empty.1, if_neg first.nonempty]
  dsimp only
  rw [if_pos rfl, sub_one safe, Double.ofDigits, withinSize_lastByte safe,
    Digits.value]
  split <;> rfl

theorem rangeOfFields_between (first last : Digits) :
    rangeOfFields (.finite size) first.text last.text =
      some (ofClip ((ByteRange.between first last).clip size)) := by
  have wide : (1 : ℕ) < unsafeFrom := by decide
  unfold rangeOfFields ByteRange.clip
  rw [if_neg fun empty => first.nonempty empty.1, if_neg first.nonempty]
  dsimp only
  rw [if_neg last.nonempty, sub_one safe, Double.ofDigits, Double.ofDigits,
    Double.min_ofInt (by omega) (by omega),
    withinSize_eq safe (by omega) (by omega)]
  change some (if (first.value : Int) ≤ min (last.value : Int) (size - 1) then
    _ else _) = _
  by_cases inside : first.value ≤ last.value ∧ first.value < size
  · have last : ((min last.value (size - 1) : ℕ) : Int) =
        min (last.value : Int) (size - 1) := by omega
    rw [if_pos inside, if_pos (by omega), ofClip, last]
    rfl
  · rw [if_neg inside, if_neg (by omega)]
    rfl

theorem rangeOfFields_suffix (length : Digits) :
    rangeOfFields (.finite size) [] length.text =
      some (ofClip ((ByteRange.suffix length).clip size)) := by
  have wide : (0 : Int).natAbs < unsafeFrom := by decide
  unfold rangeOfFields ByteRange.clip
  rw [if_neg fun empty => length.nonempty empty.2, if_pos rfl]
  dsimp only
  rw [sub_one safe, Double.ofDigits,
    Double.max_sub_ofInt (by omega) (by omega) (by omega)]
  have zero : Double.ofInt length.value = .finite 0 ↔ length.value = 0 := by
    rw [Double.ofInt_eq_finite wide (by omega)]
    omega
  have start : Double.finite (max 0 ((size : Int) - length.value)) =
      Double.ofInt ((size - length.value : ℕ) : Int) := by
    rw [Double.ofInt_of_safe (by omega)]
    congr 1
    omega
  change (if Double.ofInt length.value = .finite 0 then _ else
    some (withinSize _ (.finite (max 0 ((size : Int) - length.value))) _)) = _
  by_cases nothing : length.value = 0
  · rw [if_pos (zero.mpr nothing), if_neg (by omega)]
    rfl
  · rw [if_neg fun same => nothing (zero.mp same), start,
      withinSize_lastByte safe]
    by_cases inside : 0 < size
    · rw [if_pos (by omega), if_pos (by omega)]
      rfl
    · rw [if_neg (by omega), if_neg (by omega)]
      rfl

/-- The code computes the selected bytes exactly, however long the numbers
are. -/
theorem rangeOfFields_eq (range : ByteRange) :
    rangeOfFields (.finite size) (fieldsOf range).1 (fieldsOf range).2 =
      some (ofClip (range.clip size)) := by
  cases range with
  | onward first => exact rangeOfFields_onward safe first
  | between first last => exact rangeOfFields_between safe first last
  | suffix length => exact rangeOfFields_suffix safe length

theorem parseRange_of_literal {raw : List Char} {range : ByteRange}
    (literal : IsLiteralRange raw range) :
    parseRange (some raw) (.finite size) = some (ofClip (range.clip size)) := by
  have fields : rangeFields (ecmaTrim raw) = some (fieldsOf range) := by
    apply rangeFields_eq_some.mpr
    rw [(ecmaTrim_eq_iff range).mpr literal, text_eq_fields]
    exact ⟨rfl, all_isDigit_fieldsOf range⟩
  have nonempty : raw ≠ [] := by
    rintro rfl
    cases fields
  unfold parseRange
  dsimp only
  rw [if_neg nonempty, fields, Option.bind_some, rangeOfFields_eq safe]

end Bounds

/-- Without a value only what is no literal range is left. -/
theorem parseRange_eq_none_iff {raw : Option (List Char)} {size : ℕ}
    (safe : size < unsafeFrom) :
    parseRange raw (.finite size) = none ↔
      ∀ value ∈ raw, ∀ range, ¬IsLiteralRange value range := by
  constructor
  · intro nothing value given range literal
    rw [given, parseRange_of_literal safe literal] at nothing
    cases nothing
  · intro never
    cases raw with
    | none => rfl
    | some value =>
        unfold parseRange
        dsimp only
        split
        · rfl
        · rcases trimmed : rangeFields (ecmaTrim value) with _ | ⟨first, last⟩
          · rfl
          · obtain ⟨whole, legal⟩ := rangeFields_eq_some.mp trimmed
            by_cases written : first = [] ∧ last = []
            · exact if_pos written
            · obtain ⟨range, fields⟩ := exists_fieldsOf written legal.1 legal.2
              have literal : IsLiteralRange value range := by
                apply (ecmaTrim_eq_iff range).mp
                rw [whole, text_eq_fields, fields]
              exact absurd literal (never value rfl range)

end ChartLocker.Plugin.PmtilesRoutes
