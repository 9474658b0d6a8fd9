import ChartLocker.Library.UrlPath

/-!
# Percent-encoding

The encoding of a text in which some characters stay and every byte of the
UTF-8 of the others becomes an escape.  Decoding reads every text back as long
as the percent sign is not among the characters which stay.
-/

namespace Library.Url

open Text

/-! ## Escapes of bytes -/

def escapeByte (byte : Nat) : List Char :=
  ['%', upperHex (byte / 16), upperHex (byte % 16)]

def escapeBytes (bytes : List Nat) : List Char :=
  bytes.flatMap escapeByte

/-- The bytes of the UTF-8 of a code point. -/
def utf8Bytes (point : Nat) : List Nat :=
  if point ≤ 0x7f then
    [point]
  else if point ≤ 0x7ff then
    [point / 64 % 32 + 0xc0, point % 64 + 0x80]
  else if point ≤ 0xffff then
    [point / 4096 % 16 + 0xe0, point / 64 % 64 + 0x80, point % 64 + 0x80]
  else
    [point / 262144 % 8 + 0xf0, point / 4096 % 64 + 0x80,
      point / 64 % 64 + 0x80, point % 64 + 0x80]

/-- The text in which the characters outside a set are escaped. -/
def encodeExcept (kept : Char → Bool) (text : List Char) : List Char :=
  text.flatMap fun char =>
    if kept char then [char] else escapeBytes (utf8Bytes char.toNat)

theorem hexValue_upperHex {digit : Nat} (small : digit < 16) :
    hexValue (upperHex digit) = some digit := by
  have checked : (List.range 16).all
      (fun value => hexValue (upperHex value) == some value) = true := by
    decide
  have found := List.all_eq_true.mp checked digit (List.mem_range.mpr small)
  exact beq_iff_eq.mp found

/-- A digit of an escape is a letter or a digit. -/
theorem isAlphanum_upperHex (digit : Nat) :
    (upperHex digit).isAlphanum = true := by
  by_cases small : digit < 16
  · have checked : (List.range 16).all
        (fun value => (upperHex value).isAlphanum) = true := by
      decide
    exact List.all_eq_true.mp checked digit (List.mem_range.mpr small)
  · have beyond : upperHex digit = '0' := by
      have outside : "0123456789ABCDEF".toList[digit]? = none := by
        apply List.getElem?_eq_none
        have : "0123456789ABCDEF".toList.length = 16 := by decide
        omega
      rw [upperHex, List.getD_eq_getElem?_getD, outside, Option.getD_none]
    rw [beyond]
    decide

theorem escape_escapeByte {byte : Nat} (small : byte < 256)
    (rest : List Char) :
    escape (escapeByte byte ++ rest) = some (byte, rest) := by
  have high : hexValue (upperHex (byte / 16)) = some (byte / 16) :=
    hexValue_upperHex (by omega)
  have low : hexValue (upperHex (byte % 16)) = some (byte % 16) :=
    hexValue_upperHex (by omega)
  simp only [escapeByte, List.cons_append, List.nil_append, escape, high, low,
    Option.bind_some, Option.map_some]
  congr 2
  omega

theorem toNat_lt (char : Char) : char.toNat < 0x110000 := by
  have valid : char.toNat.isValidChar := char.valid
  simp only [Nat.isValidChar] at valid
  omega

theorem map_toNat_utf8EncodeChar (char : Char) :
    (String.utf8EncodeChar char).map UInt8.toNat =
      utf8Bytes char.toNat := by
  have bound := toNat_lt char
  have point : char.val.toNat = char.toNat := rfl
  simp only [String.utf8EncodeChar, utf8Bytes, point]
  generalize char.toNat = value at bound
  by_cases one : value ≤ 0x7f
  · rw [if_pos one, if_pos one]
    simp only [List.map_cons, List.map_nil, UInt8.toNat_ofNat']
    congr 1
    omega
  · rw [if_neg one, if_neg one]
    by_cases two : value ≤ 0x7ff
    · rw [if_pos two, if_pos two]
      simp only [List.map_cons, List.map_nil, UInt8.toNat_ofNat',
        List.cons.injEq, and_true]
      constructor <;> omega
    · rw [if_neg two, if_neg two]
      by_cases three : value ≤ 0xffff
      · rw [if_pos three, if_pos three]
        simp only [List.map_cons, List.map_nil, UInt8.toNat_ofNat',
          List.cons.injEq, and_true]
        refine ⟨?_, ?_, ?_⟩ <;> omega
      · rw [if_neg three, if_neg three]
        simp only [List.map_cons, List.map_nil, UInt8.toNat_ofNat',
          List.cons.injEq, and_true]
        refine ⟨?_, ?_, ?_, ?_⟩ <;> omega

/-! ## The bytes of a string -/

theorem toList_loop (bytes : ByteArray) (read : List UInt8) (index : Nat)
    (bound : index ≤ bytes.size) :
    ByteArray.toList.loop bytes index read =
      read.reverse ++ bytes.data.toList.drop index := by
  have size : bytes.data.toList.length = bytes.size := by
    rw [Array.length_toList]
    rfl
  induction remaining : bytes.size - index generalizing index read with
  | zero =>
      rw [ByteArray.toList.loop, if_neg (by omega),
        List.drop_eq_nil_of_le (by omega), List.append_nil]
  | succ remaining induction =>
      have inside : index < bytes.data.toList.length := by omega
      have head : bytes.get! index = bytes.data.toList[index] := by
        rw [Array.getElem_toList]
        exact getElem!_pos bytes.data index (by omega)
      rw [ByteArray.toList.loop, if_pos (by omega),
        induction _ _ (by omega) (by omega),
        List.drop_eq_getElem_cons inside, List.reverse_cons, head,
        List.append_assoc, List.singleton_append]

theorem toList_toUTF8 (text : String) :
    text.toUTF8.toList = text.toList.flatMap String.utf8EncodeChar := by
  have bytes : text.toUTF8 =
      (text.toList.flatMap String.utf8EncodeChar).toByteArray :=
    String.utf8Encode_toList.symm
  rw [bytes, ByteArray.toList, toList_loop _ _ _ (Nat.zero_le _),
    List.drop_zero, List.reverse_nil, List.nil_append,
    List.toList_data_toByteArray]

/-! ## Decoding -/

theorem continuations_cons {byte : Nat} (lower : 0x80 ≤ byte)
    (upper : byte < 0xc0) (count value : Nat) (rest : List Char) :
    continuations (count + 1) value (escapeByte byte ++ rest) =
      continuations count (value * 64 + (byte - 0x80)) rest := by
  rw [continuations, escape_escapeByte (by omega), Option.bind_some,
    if_pos ⟨lower, upper⟩]

/-- The escapes of a code point are read as the code point. -/
theorem escapedCharacter_utf8Bytes (char : Char) (rest : List Char) :
    escapedCharacter (escapeBytes (utf8Bytes char.toNat) ++ rest) =
      some (char, rest) := by
  have valid : char.toNat.isValidChar := char.valid
  have bound := toNat_lt char
  have back : Char.ofNat char.toNat = char := Char.ofNat_toNat char
  -- What remains once the bytes are read.
  have finish : ∀ least value : Nat, value = char.toNat →
      least ≤ char.toNat →
        (if least ≤ value ∧ value.isValidChar then
          some (Char.ofNat value, rest) else none) = some (char, rest) := by
    intro least value same enough
    rw [same, back, if_pos ⟨enough, valid⟩]
  simp only [escapedCharacter, utf8Bytes, escapeBytes]
  split
  · next one =>
    have leads : leadingByte char.toNat = some (0, char.toNat, 0) := by
      rw [leadingByte, if_pos (by omega)]
    simp only [List.flatMap_cons, List.flatMap_nil, List.append_nil]
    rw [escape_escapeByte (by omega), Option.bind_some, leads,
      Option.bind_some, continuations, Option.bind_some]
    exact finish 0 _ rfl (Nat.zero_le _)
  · next beyondOne =>
    split
    · next two =>
      have leads : leadingByte (char.toNat / 64 % 32 + 0xc0) =
          some (1, char.toNat / 64 % 32, 0x80) := by
        rw [leadingByte, if_neg (by omega), if_pos (by omega),
          Nat.add_sub_cancel]
      simp only [List.flatMap_cons, List.flatMap_nil, List.append_nil,
        List.append_assoc]
      rw [escape_escapeByte (by omega), Option.bind_some, leads,
        Option.bind_some, continuations_cons (by omega) (by omega),
        continuations, Option.bind_some]
      apply finish 0x80
      · dsimp only
        omega
      · omega
    · next beyondTwo =>
      split
      · next three =>
        have leads : leadingByte (char.toNat / 4096 % 16 + 0xe0) =
            some (2, char.toNat / 4096 % 16, 0x800) := by
          rw [leadingByte, if_neg (by omega), if_neg (by omega),
            if_pos (by omega), Nat.add_sub_cancel]
        simp only [List.flatMap_cons, List.flatMap_nil, List.append_nil,
          List.append_assoc]
        rw [escape_escapeByte (by omega), Option.bind_some, leads,
          Option.bind_some, continuations_cons (by omega) (by omega),
          continuations_cons (by omega) (by omega), continuations,
          Option.bind_some]
        apply finish 0x800
        · dsimp only
          omega
        · omega
      · next four =>
        have leads : leadingByte (char.toNat / 262144 % 8 + 0xf0) =
            some (3, char.toNat / 262144 % 8, 0x10000) := by
          rw [leadingByte, if_neg (by omega), if_neg (by omega),
            if_neg (by omega), if_pos (by omega), Nat.add_sub_cancel]
        simp only [List.flatMap_cons, List.flatMap_nil, List.append_nil,
          List.append_assoc]
        rw [escape_escapeByte (by omega), Option.bind_some, leads,
          Option.bind_some, continuations_cons (by omega) (by omega),
          continuations_cons (by omega) (by omega),
          continuations_cons (by omega) (by omega), continuations,
          Option.bind_some]
        apply finish 0x10000
        · dsimp only
          omega
        · omega

theorem decodeFrom_append (used rest : List Char) :
    decodeFrom used.length (used ++ rest) = decodeFrom 0 rest := by
  induction used with
  | nil => rfl
  | cons head used induction => exact induction

theorem escapeBytes_utf8Bytes_cons (point : Nat) :
    ∃ tail, escapeBytes (utf8Bytes point) = '%' :: tail := by
  simp only [utf8Bytes]
  split
  · exact ⟨_, rfl⟩
  · split
    · exact ⟨_, rfl⟩
    · split
      · exact ⟨_, rfl⟩
      · exact ⟨_, rfl⟩

/-- Every text is read back from its encoding. -/
theorem decode_encodeExcept {kept : Char → Bool} (escaped : kept '%' = false)
    (text : List Char) :
    decodeURIComponent (encodeExcept kept text) = some text := by
  unfold decodeURIComponent
  induction text with
  | nil => rfl
  | cons head text induction =>
      have whole : encodeExcept kept (head :: text) =
          (if kept head then [head] else
            escapeBytes (utf8Bytes head.toNat)) ++ encodeExcept kept text := by
        rfl
      rw [whole]
      split
      · next stays =>
        have different : head ≠ '%' := by
          intro same
          rw [same, escaped] at stays
          contradiction
        rw [List.singleton_append, decodeFrom, if_neg different, induction,
          Option.map_some]
      · obtain ⟨tail, shape⟩ := escapeBytes_utf8Bytes_cons head.toNat
        have read := escapedCharacter_utf8Bytes head (encodeExcept kept text)
        rw [shape, List.cons_append] at read ⊢
        rw [decodeFrom, if_pos rfl, read, Option.bind_some, List.length_append,
          Nat.add_sub_cancel, decodeFrom_append, induction, Option.map_some]

/-! ## What an encoding consists of -/

theorem mem_escapeBytes {bytes : List Nat} {char : Char}
    (member : char ∈ escapeBytes bytes) :
    char = '%' ∨ char.isAlphanum = true := by
  obtain ⟨byte, _, inside⟩ := List.mem_flatMap.mp member
  simp only [escapeByte, List.mem_cons, List.not_mem_nil, or_false] at inside
  rcases inside with percent | high | low
  · exact .inl percent
  · rw [high]
    exact .inr (isAlphanum_upperHex _)
  · rw [low]
    exact .inr (isAlphanum_upperHex _)

theorem mem_encodeExcept {kept : Char → Bool} {text : List Char} {char : Char}
    (member : char ∈ encodeExcept kept text) :
    kept char = true ∨ char = '%' ∨ char.isAlphanum = true := by
  obtain ⟨source, _, inside⟩ := List.mem_flatMap.mp member
  split at inside
  · next stays =>
    rw [List.mem_singleton.mp inside]
    exact .inl stays
  · exact .inr (mem_escapeBytes inside)

end Library.Url
