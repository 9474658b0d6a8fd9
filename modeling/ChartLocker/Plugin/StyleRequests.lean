import ChartLocker.Plugin.StyleProxy

/-!
# What the served document asks for

The references of the served document, expanded by a client, have the shape of
the paths which the proxy lets through and the routes read back.
-/

namespace ChartLocker.Plugin.StyleProxy

open Library Text Url Catalog Config Style Warm ContainerTargets

/-! ## Expanded references -/

section References

/-- The first placeholder of a text is filled where it stands. -/
theorem replaceFrom_placeholder
    {name pattern replacement before after text : List Char}
    (braced : pattern = '{' :: name) (free : '{' ∉ before)
    (shape : text = before ++ (pattern ++ after))
    (last : replaceFrom pattern replacement 0 after = after) :
    replaceFrom pattern replacement 0 text =
      before ++ (replacement ++ after) := by
  subst braced
  have begins : '{' :: name <+: '{' :: (name ++ after) := ⟨after, rfl⟩
  have behind : (name ++ after).drop (('{' :: name).length - 1) = after := by
    rw [List.length_cons, Nat.add_sub_cancel, List.drop_left]
  rw [shape, Placeholder.replaceFrom_append free, List.cons_append,
    replaceFrom, if_pos begins, Placeholder.replaceFrom_skip, behind, last]

theorem brace_notMem_digits (number : Nat) :
    '{' ∉ number.repr.toList := by
  intro member
  have digit := Placeholder.isDigit_of_mem_digits member
  exact absurd digit (by decide)

theorem brace_notMem_encodeFontstack (name : String) :
    '{' ∉ (encodeFontstack name).toList := by
  intro member
  cases mem_encodeFontstack member with
  | inl percent => exact absurd percent (by decide)
  | inr plain => exact absurd plain (by decide)

theorem toList_expandTileUrl {template : String} {front : List Char}
    (free : '{' ∉ front)
    (shape : template.toList = front ++ "{z}/{x}/{y}".toList)
    (z x y : Nat) :
    (expandTileUrl template z x y).toList =
      front ++ (z.repr.toList ++ '/' :: (x.repr.toList ++ '/' ::
        y.repr.toList)) := by
  have slash : '{' ∉ ['/'] := by decide
  have second : '{' ∉ front ++ (z.repr.toList ++ ['/']) :=
    List.not_mem_append free
      (List.not_mem_append (brace_notMem_digits z) slash)
  have third : '{' ∉ front ++ (z.repr.toList ++ ['/']) ++
      (x.repr.toList ++ ['/']) :=
    List.not_mem_append second
      (List.not_mem_append (brace_notMem_digits x) slash)
  have filledZ : replaceFrom "{z}".toList z.repr.toList 0 template.toList =
      front ++ (z.repr.toList ++ "/{x}/{y}".toList) := by
    apply replaceFrom_placeholder (by rfl) free
    · rw [shape]
      rfl
    · rfl
  have filledX : replaceFrom "{x}".toList x.repr.toList 0
      (front ++ (z.repr.toList ++ "/{x}/{y}".toList)) =
      front ++ (z.repr.toList ++ ['/']) ++
        (x.repr.toList ++ "/{y}".toList) := by
    apply replaceFrom_placeholder (by rfl) second
    · simp only [List.append_assoc]
      rfl
    · rfl
  have filledY : replaceFrom "{y}".toList y.repr.toList 0
      (front ++ (z.repr.toList ++ ['/']) ++
        (x.repr.toList ++ "/{y}".toList)) =
      front ++ (z.repr.toList ++ ['/']) ++ (x.repr.toList ++ ['/']) ++
        (y.repr.toList ++ []) := by
    apply replaceFrom_placeholder (by rfl) third
    · simp only [List.append_assoc]
      rfl
    · rfl
  simp only [expandTileUrl, replace, String.toList_ofList]
  rw [filledZ, filledX, filledY]
  simp only [List.append_assoc, List.append_nil]
  rfl

theorem toList_expandGlyphUrl {template : String} {front : List Char}
    (free : '{' ∉ front)
    (shape : template.toList = front ++ "{fontstack}/{range}.pbf".toList)
    (fontstack : String) (start : Nat) :
    (expandGlyphUrl template fontstack (rangeName start ++ ".pbf")).toList =
      front ++ ((encodeFontstack fontstack).toList ++ '/' ::
        (rangeName start ++ ".pbf").toList) := by
  have stem : (stripSuffix (rangeName start ++ ".pbf").toList
      ".pbf".toList).elim (rangeName start ++ ".pbf") String.ofList =
        rangeName start := by
    rw [stripSuffix, String.toList_append,
      if_pos (List.suffix_append _ _), List.length_append,
      Nat.add_sub_cancel, List.take_left, Option.elim_some,
      String.ofList_toList]
  have second : '{' ∉ front ++ ((encodeFontstack fontstack).toList ++
      ['/']) :=
    List.not_mem_append free
      (List.not_mem_append (brace_notMem_encodeFontstack fontstack)
        (by decide))
  have filledStack : replaceFrom "{fontstack}".toList
      (encodeFontstack fontstack).toList 0 template.toList =
      front ++ ((encodeFontstack fontstack).toList ++
        "/{range}.pbf".toList) := by
    apply replaceFrom_placeholder (by rfl) free
    · rw [shape]
      rfl
    · rfl
  have filledRange : replaceFrom "{range}".toList (rangeName start).toList 0
      (front ++ ((encodeFontstack fontstack).toList ++
        "/{range}.pbf".toList)) =
      front ++ ((encodeFontstack fontstack).toList ++ ['/']) ++
        ((rangeName start).toList ++ ".pbf".toList) := by
    apply replaceFrom_placeholder (by rfl) second
    · simp only [List.append_assoc]
      rfl
    · rfl
  simp only [expandGlyphUrl, replace, String.toList_ofList, stem]
  rw [filledStack, filledRange, String.toList_append]
  simp only [List.append_assoc]
  rfl

variable {base source name : String}

/-- The tile reference of the served document. -/
theorem toList_expandTileUrl_served (baseFree : '{' ∉ base.toList)
    (sourceFree : '{' ∉ source.toList) (z x y : Nat) :
    (expandTileUrl (servedTiles base source name) z x y).toList =
      base.toList ++ pathWith ["style".toList, source.toList, "tiles".toList,
        (encodeFontstack name).toList, z.repr.toList, x.repr.toList,
        y.repr.toList] := by
  have front : '{' ∉ base.toList ++ ("/style/".toList ++ (source.toList ++
      ("/tiles/".toList ++ ((encodeFontstack name).toList ++ ['/'])))) := by
    simp only [List.mem_append, not_or]
    exact ⟨baseFree, by decide, sourceFree, by decide,
      brace_notMem_encodeFontstack name, by decide⟩
  rw [toList_expandTileUrl front]
  · simp only [pathWith, List.intercalate_cons_cons,
      List.intercalate_singleton, List.append_assoc]
    rfl
  · simp only [servedTiles, String.toList_append, List.append_assoc]
    rfl

/-- The glyphs reference of the served document. -/
theorem toList_expandGlyphUrl_served (baseFree : '{' ∉ base.toList)
    (sourceFree : '{' ∉ source.toList) (fontstack : String) (start : Nat) :
    (expandGlyphUrl (servedGlyphs base source) fontstack
      (rangeName start ++ ".pbf")).toList =
      base.toList ++ pathWith ["style".toList, source.toList,
        "glyphs".toList, (encodeFontstack fontstack).toList,
        (rangeName start ++ ".pbf").toList] := by
  have front : '{' ∉ base.toList ++ ("/style/".toList ++ (source.toList ++
      "/glyphs/".toList)) := by
    simp only [List.mem_append, not_or]
    exact ⟨baseFree, by decide, sourceFree, by decide⟩
  rw [toList_expandGlyphUrl front]
  · simp only [pathWith, List.intercalate_cons_cons,
      List.intercalate_singleton, List.append_assoc]
    rfl
  · simp only [servedGlyphs, String.toList_append, List.append_assoc]
    rfl

/-! ### Reading numbers and ranges back -/

theorem parseUnsigned_repr (limit number : Nat) :
    parseUnsigned limit number.repr.toList =
      if number ≤ limit then some number else none := by
  have digits : number.repr.toList.all Char.isDigit = true := by
    apply List.all_eq_true.mpr
    exact fun _ member => Placeholder.isDigit_of_mem_digits member
  have value : Nat.ofDigitChars 10 number.repr.toList 0 = number := by
    rw [Nat.toList_repr, Nat.ofDigitChars_ten_toDigits]
  unfold parseUnsigned
  dsimp only
  split
  · next rest plus =>
    have member : '+' ∈ number.repr.toList := by
      rw [plus]
      exact List.mem_cons_self
    have digit := Placeholder.isDigit_of_mem_digits member
    exact absurd digit (by decide)
  · rw [if_pos ⟨Placeholder.digits_ne_nil number, digits⟩, value]

theorem glyphRange_rangeName (start : Nat) :
    glyphRange (rangeName start ++ ".pbf") =
      if start % 256 = 0 ∧ start ≤ 0x10ff00 then
        some (start, rangeName start ++ ".pbf")
      else
        none := by
  have hyphen : '-' ∉ start.repr.toList := by
    intro member
    have digit := Placeholder.isDigit_of_mem_digits member
    exact absurd digit (by decide)
  have stem : stripSuffix (rangeName start ++ ".pbf").toList ".pbf".toList =
      some (start.repr.toList ++ '-' :: (start + 255).repr.toList) := by
    rw [stripSuffix, String.toList_append,
      if_pos (List.suffix_append _ _), List.length_append,
      Nat.add_sub_cancel, List.take_left]
    simp only [rangeName, String.toList_append, List.append_assoc]
    rfl
  simp only [glyphRange, stem, Option.bind_some, splitOnce_append hyphen,
    parseUnsigned_repr]
  by_cases fits : start + 255 ≤ u32Max
  · have smaller : start ≤ u32Max := by
      omega
    rw [if_pos smaller, Option.bind_some, if_pos fits, Option.bind_some]
    by_cases aligned : start % 256 = 0 ∧ start ≤ 0x10ff00
    · rw [if_pos aligned, if_neg]
      · rfl
      · omega
    · rw [if_neg aligned, if_pos]
      omega
  · have misaligned : ¬ (start % 256 = 0 ∧ start ≤ 0x10ff00) := by
      have limit : u32Max = 4294967295 := rfl
      omega
    rw [if_neg misaligned]
    simp only [if_neg fits, Option.bind_none]
    split
    · rfl
    · rfl

end References

/-! ## Requests of assets -/

section Assets

variable {decode : List Char → Option (List Char)}
  (decodes : ∀ raw value, decodeURIComponent raw = some value →
    decode raw = some value)
  {allowed : String → Bool} {service : Service Json} {page : Origin}
  {mount : Mount} {source : String}

/-- The check which a style route makes before it looks for an upstream. -/
def admitted (content : StyleContent Json) : StyleResource → Bool
  | .tile name z x y =>
      decide (z ≤ (learnedMaxzoom content name).getD 24 ∧ z ≤ 24 ∧
        x < 2 ^ z ∧ y < 2 ^ z)
  | .glyphs fontstack start =>
      decide (fontstack ∈ content.fontstacks ∧ start % 256 = 0 ∧
        start ≤ 0x10ff00)
  | .sprite _ => true

/-- The proxy lets the name of a resource through. -/
def forwarded : StyleResource → Bool
  | .tile name _ _ _ =>
      !unsafePathSegment (encodeFontstack name).toList
  | .glyphs fontstack _ =>
      !unsafePathSegment (encodeFontstack fontstack).toList
  | .sprite _ => true

theorem mountedUrl_path (path : List Char) :
    mountedUrl page mount (mount.text.toList ++ path) = some path := by
  have slash : (mount.text.toList ++ path).head? = some '/' := by
    rw [List.head?_append, mount.slash]
    rfl
  rw [mountedUrl, absoluteUrl, if_pos slash, List.dropPrefix?_eq_some_iff]
  exact ⟨page.text.toList ++ mount.text.toList,
    (List.append_assoc _ _ _).symm, beq_self_eq_true _⟩

theorem mountedUrl_absolute (path : List Char) :
    mountedUrl page mount
      (page.text.toList ++ (mount.text.toList ++ path)) = some path := by
  have absolute : (page.text.toList ++
      (mount.text.toList ++ path)).head? ≠ some '/' := by
    rw [List.head?_append, page.absolute]
    exact fun same => absurd (Option.some.inj same) (by decide)
  rw [mountedUrl, absoluteUrl, if_neg absolute, List.dropPrefix?_eq_some_iff]
  exact ⟨page.text.toList ++ mount.text.toList,
    (List.append_assoc _ _ _).symm, beq_self_eq_true _⟩

theorem plainSegment_encodeFontstack (name : String) :
    PlainSegment (encodeFontstack name).toList := by
  apply plainSegment_of_marks
  intro char member
  cases mem_encodeFontstack member with
  | inl percent => exact .inr (percent ▸ by decide)
  | inr plain => exact .inl plain

theorem plainSegment_repr (number : Nat) :
    PlainSegment number.repr.toList := by
  apply plainSegment_of_marks
  intro char member
  have digit : char.isDigit = true := Placeholder.isDigit_of_mem_digits member
  left
  rw [Char.isAlphanum, digit, Bool.or_true]

theorem passed_of_marks {segment : List Char}
    (marks : ∀ char ∈ segment, char.isAlphanum = true ∨
      char ∈ "._-@".toList)
    (undotted : segment ≠ ".".toList ∧ segment ≠ "..".toList) :
    unsafePathSegment segment = false := by
  have plain : PlainSegment segment :=
    plainSegment_of_marks fun char member => (marks char member).imp_right
      fun mark => List.mem_cons_of_mem '%' mark
  apply passed_of_plain
  · refine ⟨undotted.1, undotted.2, ?_, ?_, ?_⟩
    · exact fun slash => (plain.target '/' slash).1 rfl
    · exact fun back => (plain.target backslash back).2.2.2.1 rfl
    · exact fun char member => (plain.target char member).2.2.2.2
  · intro percent
    cases marks '%' percent with
    | inl letter => exact absurd letter (by decide)
    | inr mark => exact absurd mark (by decide)

theorem passed_repr (number : Nat) :
    unsafePathSegment number.repr.toList = false := by
  apply passed_of_marks
  · intro char member
    have digit : char.isDigit = true :=
      Placeholder.isDigit_of_mem_digits member
    left
    rw [Char.isAlphanum, digit, Bool.or_true]
  · have dotless : '.' ∉ number.repr.toList := by
      intro member
      have digit := Placeholder.isDigit_of_mem_digits member
      exact absurd digit (by decide)
    constructor
    · intro same
      rw [same] at dotless
      exact dotless (by decide)
    · intro same
      rw [same] at dotless
      exact dotless (by decide)

theorem styleRoute_sprite {segment : List Char} {source : String}
    {entry : Nat × String × StyleAssetKind} (known : entry ∈ spriteVariants)
    (free : '/' ∉ segment) (read : param decode segment = some source) :
    styleRoute decode (pathWith ["style".toList, segment,
      "sprite".toList ++ entry.2.1.toList]) =
        some (source, .sprite entry.1) := by
  have slashFree : '/' ∉ "sprite".toList ++ entry.2.1.toList := by
    have checked : spriteVariants.all (fun entry =>
        !("sprite".toList ++ entry.2.1.toList).contains '/') = true := by
      decide
    simpa using List.all_eq_true.mp checked entry known
  have chosen : spriteVariants.find? (fun other =>
      decide ("sprite".toList ++ entry.2.1.toList =
        "sprite".toList ++ other.2.1.toList)) = some entry := by
    simp only [spriteVariants, List.mem_cons, List.not_mem_nil, or_false]
      at known
    rcases known with rfl | rfl | rfl | rfl
    · rfl
    · rfl
    · rfl
    · rfl
  have parts : (pathWith ["style".toList, segment,
      "sprite".toList ++ entry.2.1.toList]).splitOn '/' =
      [[], "style".toList, segment,
        "sprite".toList ++ entry.2.1.toList] := by
    apply splitOn_pathWith (List.cons_ne_nil _ _)
    intro part member
    simp only [List.mem_cons, List.not_mem_nil, or_false] at member
    rcases member with rfl | rfl | rfl
    · decide
    · exact free
    · exact slashFree
  simp only [styleRoute, parts, read, chosen, if_true, Option.bind_some,
    Option.map_some]

theorem styleRoute_glyphs {segment stack : List Char}
    {source fontstack range : String} (free : '/' ∉ segment)
    (stackFree : '/' ∉ stack) (rangeFree : '/' ∉ range.toList)
    (read : param decode segment = some source)
    (readStack : param decode stack = some fontstack)
    (readRange : param decode range.toList = some range) :
    styleRoute decode (pathWith ["style".toList, segment, "glyphs".toList,
      stack, range.toList]) = some (source, .glyphs fontstack range) := by
  have parts : (pathWith ["style".toList, segment, "glyphs".toList, stack,
      range.toList]).splitOn '/' =
      [[], "style".toList, segment, "glyphs".toList, stack,
        range.toList] := by
    apply splitOn_pathWith (List.cons_ne_nil _ _)
    intro part member
    simp only [List.mem_cons, List.not_mem_nil, or_false] at member
    rcases member with rfl | rfl | rfl | rfl | rfl
    · decide
    · exact free
    · decide
    · exact stackFree
    · exact rangeFree
  simp only [styleRoute, parts, read, readStack, readRange, and_self, if_true,
    Option.bind_some, Option.map_some]

theorem styleRoute_tile {segment encoded : List Char} {source name : String}
    (free : '/' ∉ segment) (encodedFree : '/' ∉ encoded)
    (read : param decode segment = some source)
    (readName : param decode encoded = some name) {z x y : Nat}
    (readNumber : ∀ number : Nat, param decode number.repr.toList =
      some number.repr) :
    styleRoute decode (pathWith ["style".toList, segment, "tiles".toList,
      encoded, z.repr.toList, x.repr.toList, y.repr.toList]) =
        if z ≤ u32Max ∧ x ≤ u32Max ∧ y ≤ u32Max then
          some (source, .tile name z x y)
        else
          none := by
  have digits : ∀ number : Nat, '/' ∉ number.repr.toList := by
    intro number member
    have digit := Placeholder.isDigit_of_mem_digits member
    exact absurd digit (by decide)
  have parts : (pathWith ["style".toList, segment, "tiles".toList, encoded,
      z.repr.toList, x.repr.toList, y.repr.toList]).splitOn '/' =
      [[], "style".toList, segment, "tiles".toList, encoded, z.repr.toList,
        x.repr.toList, y.repr.toList] := by
    apply splitOn_pathWith (List.cons_ne_nil _ _)
    intro part member
    simp only [List.mem_cons, List.not_mem_nil, or_false] at member
    rcases member with rfl | rfl | rfl | rfl | rfl | rfl | rfl
    · decide
    · exact free
    · decide
    · exact encodedFree
    · exact digits z
    · exact digits x
    · exact digits y
  simp only [styleRoute, parts, read, readName, readNumber, and_self, if_true,
    Option.bind_some, parseUnsigned_repr]
  by_cases zFits : z ≤ u32Max
  · by_cases xFits : x ≤ u32Max
    · by_cases yFits : y ≤ u32Max
      · simp [zFits, xFits, yFits]
      · simp [zFits, xFits, yFits]
    · simp [xFits]
  · simp [zFits]

/-- The way of a reference below the mount path. -/
theorem proxiedUrl_pathWith {rest : List (List Char)} {reference : String}
    (shape : reference.toList = mount.text.toList ++
      pathWith ("style".toList :: rest))
    (nonempty : rest ≠ [])
    (plain : ∀ segment ∈ rest, PlainSegment segment) :
    proxiedUrl decode page mount allowed service reference =
      if rest.any unsafePathSegment then none
      else routedUrl decode allowed service
        (pathWith ("style".toList :: rest)) := by
  rw [proxiedUrl, shape, mountedUrl_path, Option.bind_some,
    validated_pathWith nonempty fun segment member =>
      (plain segment member).target]
  split
  · rfl
  · next passed =>
    have all : ∀ segment ∈ "style".toList :: rest, PlainSegment segment :=
      List.forall_mem_cons.mpr ⟨plainSegment_style, plain⟩
    have safe : ∀ segment ∈ "style".toList :: rest,
        unsafePathSegment segment = false := by
      intro segment member
      rcases List.mem_cons.mp member with rfl | later
      · decide +kernel
      · simp only [Bool.not_eq_true, List.any_eq_false] at passed
        exact passed segment later
    have same : ("style".toList :: rest).map encodeSegment =
        "style".toList :: rest := by
      conv_rhs => rw [← List.map_id ("style".toList :: rest)]
      apply List.map_congr_left
      intro segment member
      exact (all segment member).encoded
    rw [Option.bind_some, pathOf_pathWith (List.cons_ne_nil _ _)
      (fun segment member => (all segment member).target) safe, same]

/-! ### Source ids -/

theorem marks_of_wellSeparated {separator : Bool} {text : List Char}
    (valid : wellSeparated separator text = true) :
    ∀ char ∈ text, char.isAlphanum = true ∨ char ∈ "._-@".toList := by
  induction text generalizing separator with
  | nil =>
      intro char member
      cases member
  | cons head rest induction =>
      simp only [wellSeparated] at valid
      intro char member
      split at valid
      · next plain =>
        rcases List.mem_cons.mp member with rfl | later
        · left
          simp only [isIdChar, Bool.or_eq_true] at plain
          apply Bool.or_eq_true_iff.mpr
          cases plain with
          | inl lower => exact .inl (Bool.or_eq_true_iff.mpr (.inr lower))
          | inr digit => exact .inr digit
        · exact induction valid char later
      · split at valid
        · next mark =>
          rcases List.mem_cons.mp member with rfl | later
          · right
            rcases mark.1 with rfl | rfl | rfl
            · decide
            · decide
            · decide
          · exact induction valid char later
        · contradiction

/-- A source id stands for itself in a path. -/
structure PathId (source : String) : Prop where
  marks : ∀ char ∈ source.toList, char.isAlphanum = true ∨
    char ∈ "._-@".toList
  passed : unsafePathSegment source.toList = false
  nonempty : source ≠ ""

theorem PathId.plain {source : String} (id : PathId source) :
    PlainSegment source.toList :=
  plainSegment_of_marks fun char member => (id.marks char member).imp_right
    fun mark => List.mem_cons_of_mem '%' mark

theorem PathId.notMem {source : String} (id : PathId source) {char : Char}
    (letter : char.isAlphanum = false) (mark : char ∉ "._-@".toList) :
    char ∉ source.toList := by
  intro member
  cases id.marks char member with
  | inl plain => exact absurd plain (by rw [letter]; exact Bool.false_ne_true)
  | inr other => exact mark other

theorem pathId_of_valid {source : String}
    (valid : validSourceId source = true) : PathId source := by
  simp only [validSourceId, Bool.and_eq_true] at valid
  obtain ⟨⟨first, _⟩, separated⟩ := valid
  have marks := marks_of_wellSeparated separated
  have headless : ∀ text : List Char, text.head? = none ∨
      text.head? = some '.' → source.toList ≠ text := by
    intro text head same
    rw [same] at first
    rcases head with empty | dot
    · rw [empty] at first
      contradiction
    · rw [dot] at first
      exact absurd first (by decide)
  refine ⟨marks, passed_of_marks marks ⟨?_, ?_⟩, ?_⟩
  · exact headless _ (.inr rfl)
  · exact headless _ (.inr rfl)
  · intro empty
    exact headless [] (.inl rfl) (by rw [empty]; rfl)

theorem rangeName_marks (start : Nat) :
    ∀ char ∈ (rangeName start ++ ".pbf").toList,
      char.isAlphanum = true ∨ char ∈ "._-@".toList := by
  intro char member
  simp only [rangeName, String.toList_append, List.mem_append] at member
  rcases member with ((first | hyphen) | last) | suffix
  · left
    rw [Char.isAlphanum, Placeholder.isDigit_of_mem_digits first,
      Bool.or_true]
  · rw [List.mem_singleton.mp hyphen]
    exact .inr (by decide)
  · left
    rw [Char.isAlphanum, Placeholder.isDigit_of_mem_digits last,
      Bool.or_true]
  · have checked : ".pbf".toList.all (fun char => char.isAlphanum ||
        "._-@".toList.contains char) = true := by
      decide
    simpa using List.all_eq_true.mp checked char suffix

theorem passed_rangeName (start : Nat) :
    unsafePathSegment (rangeName start ++ ".pbf").toList = false := by
  apply passed_of_marks (rangeName_marks start)
  have ends : 'f' ∈ (rangeName start ++ ".pbf").toList := by
    rw [String.toList_append]
    exact List.mem_append_right _ (by decide)
  constructor
  · intro same
    rw [same] at ends
    exact absurd ends (by decide)
  · intro same
    rw [same] at ends
    exact absurd ends (by decide)

theorem plainSegment_rangeName (start : Nat) :
    PlainSegment (rangeName start ++ ".pbf").toList :=
  plainSegment_of_marks fun char member =>
    (rangeName_marks start char member).imp_right fun mark =>
      List.mem_cons_of_mem '%' mark

theorem encodeFontstack_ne_nil {name : String} (named : name ≠ "") :
    (encodeFontstack name).toList ≠ [] := by
  intro empty
  have decoded := decode_encodeFontstack name
  rw [empty] at decoded
  cases letters : name.toList with
  | nil => exact named (String.toList_inj.mp letters)
  | cons head tail =>
      rw [letters] at decoded
      cases decoded

/-- The way of a glyphs reference up to the router. -/
theorem proxiedUrl_glyphs_path (id : PathId source) (fontstack : String)
    (start : Nat) :
    proxiedUrl decode page mount allowed service
        (expandGlyphUrl (servedGlyphs mount.text source) fontstack
          (rangeName start ++ ".pbf")) =
      if forwarded (.glyphs fontstack start) = true then
        routedUrl decode allowed service (pathWith ["style".toList,
          source.toList, "glyphs".toList, (encodeFontstack fontstack).toList,
          (rangeName start ++ ".pbf").toList])
      else
        none := by
  have brace : '{' ∉ source.toList := id.notMem (by decide) (by decide)
  have shape :=
    toList_expandGlyphUrl_served mount.plain brace fontstack start
  have plain : ∀ segment ∈ [source.toList, "glyphs".toList,
      (encodeFontstack fontstack).toList,
      (rangeName start ++ ".pbf").toList], PlainSegment segment := by
    intro segment member
    simp only [List.mem_cons, List.not_mem_nil, or_false] at member
    rcases member with rfl | rfl | rfl | rfl
    · exact id.plain
    · apply plainSegment_of_marks
      have checked : "glyphs".toList.all Char.isAlphanum = true := by
        decide
      exact fun char inside =>
        .inl (List.all_eq_true.mp checked char inside)
    · exact plainSegment_encodeFontstack fontstack
    · exact plainSegment_rangeName start
  have glyphsPassed : unsafePathSegment "glyphs".toList = false := by
    decide +kernel
  rw [proxiedUrl_pathWith shape (List.cons_ne_nil _ _) plain]
  simp only [List.any_cons, List.any_nil, id.passed, glyphsPassed,
    passed_rangeName, Bool.false_or, Bool.or_false]
  by_cases safe : unsafePathSegment (encodeFontstack fontstack).toList = true
  · have refused : forwarded (.glyphs fontstack start) = false := by
      simp only [forwarded, safe, Bool.not_true]
    rw [if_pos safe, if_neg]
    rw [refused]
    exact Bool.false_ne_true
  · have sent : forwarded (.glyphs fontstack start) = true := by
      simp only [forwarded, Bool.eq_false_iff.mpr safe, Bool.not_false]
    rw [if_neg safe, if_pos sent]

/-- The router matches no empty font stack. -/
theorem styleRoute_glyphs_empty {segment range : List Char}
    (free : '/' ∉ segment) (rangeFree : '/' ∉ range) :
    styleRoute decode (pathWith ["style".toList, segment, "glyphs".toList,
      [], range]) = none := by
  have parts : (pathWith ["style".toList, segment, "glyphs".toList, [],
      range]).splitOn '/' =
      [[], "style".toList, segment, "glyphs".toList, [], range] := by
    apply splitOn_pathWith (List.cons_ne_nil _ _)
    intro part member
    simp only [List.mem_cons, List.not_mem_nil, or_false] at member
    rcases member with rfl | rfl | rfl | rfl | rfl
    · decide
    · exact free
    · decide
    · exact List.not_mem_nil
    · exact rangeFree
  have unmatched : param decode [] = none := if_pos rfl
  simp only [styleRoute, parts, unmatched, and_self, if_true,
    Option.bind_none, Option.bind_fun_none]

include decodes

theorem param_of_decoded {segment : List Char} {value : String}
    (decoded : decodeURIComponent segment = some value.toList)
    (nonempty : segment ≠ []) : param decode segment = some value := by
  rw [param, if_neg nonempty, decodes segment value.toList decoded,
    Option.map_some, String.ofList_toList]

theorem param_of_plain {value : String} (plain : '%' ∉ value.toList)
    (nonempty : value ≠ "") : param decode value.toList = some value := by
  apply param_of_decoded decodes (decode_of_plain plain)
  intro empty
  exact nonempty (String.toList_inj.mp empty)

/-- A tile reference of the served document on its way. -/
theorem proxiedUrl_tile (id : PathId source) {name : String}
    (named : name ≠ "") (z x y : Nat) :
    proxiedUrl decode page mount allowed service
        (expandTileUrl (servedTiles mount.text source name) z x y) =
      if forwarded (.tile name z x y) = true ∧ z ≤ u32Max ∧ x ≤ u32Max ∧
          y ≤ u32Max then
        assetUrl allowed service source (.tile name z x y)
      else
        none := by
  have brace : '{' ∉ source.toList := id.notMem (by decide) (by decide)
  have shape : (expandTileUrl (servedTiles mount.text source name) z x
      y).toList = _ :=
    toList_expandTileUrl_served mount.plain brace z x y
  have digitsRead : ∀ number : Nat,
      param decode number.repr.toList = some number.repr := by
    intro number
    apply param_of_plain decodes
    · intro member
      have digit := Placeholder.isDigit_of_mem_digits member
      exact absurd digit (by decide)
    · intro empty
      exact Placeholder.digits_ne_nil number (by
        rw [Placeholder.digits, empty]
        rfl)
  have plain : ∀ segment ∈ [source.toList, "tiles".toList,
      (encodeFontstack name).toList, z.repr.toList, x.repr.toList,
      y.repr.toList], PlainSegment segment := by
    intro segment member
    simp only [List.mem_cons, List.not_mem_nil, or_false] at member
    rcases member with rfl | rfl | rfl | rfl | rfl | rfl
    · exact id.plain
    · apply plainSegment_of_marks
      have checked : "tiles".toList.all Char.isAlphanum = true := by
        decide
      exact fun char inside =>
        .inl (List.all_eq_true.mp checked char inside)
    · exact plainSegment_encodeFontstack name
    · exact plainSegment_repr z
    · exact plainSegment_repr x
    · exact plainSegment_repr y
  have tilesPassed : unsafePathSegment "tiles".toList = false := by
    decide +kernel
  rw [proxiedUrl_pathWith shape (List.cons_ne_nil _ _) plain]
  simp only [List.any_cons, List.any_nil, id.passed, tilesPassed,
    passed_repr, Bool.false_or, Bool.or_false]
  by_cases safe : unsafePathSegment (encodeFontstack name).toList = true
  · have refused : forwarded (.tile name z x y) = false := by
      simp only [forwarded, safe, Bool.not_true]
    rw [if_pos safe, if_neg]
    rw [refused]
    exact fun passes => Bool.false_ne_true passes.1
  · have sent : forwarded (.tile name z x y) = true := by
      simp only [forwarded, Bool.eq_false_iff.mpr safe, Bool.not_false]
    rw [if_neg safe, routedUrl, styleRoute_tile
      (id.notMem (by decide) (by decide))
      (fun slash => (plainSegment_encodeFontstack name _ slash).2.1 rfl)
      (param_of_plain decodes (id.notMem (by decide) (by decide))
        id.nonempty)
      (param_of_decoded decodes (decode_encodeFontstack name)
        (encodeFontstack_ne_nil named)) digitsRead]
    by_cases fits : z ≤ u32Max ∧ x ≤ u32Max ∧ y ≤ u32Max
    · rw [if_pos fits, if_pos ⟨sent, fits⟩, Option.bind_some]
    · rw [if_neg fits, if_neg fun both => fits both.2, Option.bind_none]

/-- A glyphs reference of the served document on its way. -/
theorem proxiedUrl_glyphs (id : PathId source) (fontstack : String)
    (start : Nat) :
    proxiedUrl decode page mount allowed service
        (expandGlyphUrl (servedGlyphs mount.text source) fontstack
          (rangeName start ++ ".pbf")) =
      if forwarded (.glyphs fontstack start) = true ∧ fontstack ≠ "" then
        assetUrl allowed service source
          (.glyphs fontstack (rangeName start ++ ".pbf"))
      else
        none := by
  have sourceFree : '/' ∉ source.toList := id.notMem (by decide) (by decide)
  have rangeFree : '/' ∉ (rangeName start ++ ".pbf").toList :=
    fun slash => (plainSegment_rangeName start _ slash).2.1 rfl
  have percent : '%' ∉ (rangeName start ++ ".pbf").toList := by
    intro member
    cases rangeName_marks start '%' member with
    | inl letter => exact absurd letter (by decide)
    | inr mark => exact absurd mark (by decide)
  have rangeNonempty : rangeName start ++ ".pbf" ≠ "" := by
    intro empty
    have length := congrArg String.length empty
    simp at length
  rw [proxiedUrl_glyphs_path id fontstack start]
  by_cases sent : forwarded (.glyphs fontstack start) = true
  · rw [if_pos sent]
    by_cases named : fontstack = ""
    · subst named
      have encoded : (encodeFontstack "").toList = [] := by
        rw [toList_encodeFontstack]
        rfl
      rw [if_neg fun both => both.2 rfl, routedUrl, encoded,
        styleRoute_glyphs_empty sourceFree rangeFree, Option.bind_none]
    · rw [if_pos ⟨sent, named⟩, routedUrl, styleRoute_glyphs sourceFree
        (fun slash => (plainSegment_encodeFontstack fontstack _
          slash).2.1 rfl) rangeFree
        (param_of_plain decodes (id.notMem (by decide) (by decide))
          id.nonempty)
        (param_of_decoded decodes (decode_encodeFontstack fontstack)
          (encodeFontstack_ne_nil named))
        (param_of_plain decodes percent rangeNonempty), Option.bind_some]
  · rw [if_neg sent, if_neg fun both => sent both.1]

end Assets

/-! ## The document's own path -/

section Document

variable {decode : List Char → Option (List Char)} {target rawUrl : List Char}
  {source : String}

/-- The segments of a validated target behind the directory of its route. -/
structure StyleTarget (target : List Char) (rest : List (List Char)) :
    Prop where
  path : rawPath target = pathWith ("style".toList :: rest)
  nonempty : rest ≠ []
  targets : ∀ segment ∈ rest, TargetSegment segment
  passed : ∀ segment ∈ rest, unsafePathSegment segment = false

theorem ne_question_of_mem_rawPath {char : Char}
    (member : char ∈ rawPath target) : char ≠ '?' := by
  have kept : (char != '?') = true :=
    List.mem_takeWhile_imp (p := (· != '?')) member
  exact bne_iff_ne.mp kept

theorem styleTarget_of_validated (valid : Validated target .style) :
    ∃ rest, StyleTarget target rest := by
  obtain ⟨behind, whole⟩ := valid.required
  have path : rawPath target =
      pathWith ("style".toList :: behind.splitOn '/') := by
    rw [pathWith, List.intercalate_cons_of_ne_nil
      (List.splitOn_ne_nil '/' behind), List.intercalate_splitOn, ← whole]
    rfl
  have parts : (rawPath target).splitOn '/' =
      [] :: "style".toList :: behind.splitOn '/' := by
    have spelled : rawPath target =
        [] ++ '/' :: ("style".toList ++ '/' :: behind) := whole.symm
    have single : "style".toList.splitOn '/' = ["style".toList] :=
      List.splitOn_eq_singleton (by decide)
    rw [spelled, List.splitOn_append_cons_self,
      List.splitOn_append_cons_self, single]
    rfl
  have inPath : ∀ segment ∈ behind.splitOn '/', ∀ char ∈ segment,
      char ∈ rawPath target := by
    intro segment member char inside
    have part : segment ∈ (rawPath target).splitOn '/' := by
      rw [parts]
      exact List.mem_cons_of_mem _ (List.mem_cons_of_mem _ member)
    exact mem_of_mem_splitOn part inside
  refine ⟨behind.splitOn '/', path, List.splitOn_ne_nil '/' behind, ?_, ?_⟩
  · intro segment member char inside
    have present := inPath segment member char inside
    have stored : char ∈ target :=
      (List.takeWhile_sublist (· != '?')).subset present
    refine ⟨?_, ?_, ?_, ?_, valid.printable char stored⟩
    · rintro rfl
      exact notMem_of_mem_splitOn member inside
    · exact ne_question_of_mem_rawPath present
    · rintro rfl
      exact valid.noFragment stored
    · rintro rfl
      exact valid.backslash_notMem present
  · intro segment member
    apply valid.passed
    rw [parts]
    exact List.mem_cons_of_mem _ (List.mem_cons_of_mem _ member)

theorem pathOf_rawPath (free : '#' ∉ target) :
    pathOf target = pathOf (rawPath target) := by
  have inside : '#' ∉ rawPath target := fun member =>
    free ((List.takeWhile_sublist (· != '?')).subset member)
  have again : rawPath (rawPath target) = rawPath target :=
    List.takeWhile_eq_self_iff.mpr fun char member =>
      bne_iff_ne.mpr (ne_question_of_mem_rawPath member)
  have same : (target.takeWhile fun char => char != '?' && char != '#') =
      (rawPath target).takeWhile fun char => char != '?' && char != '#' :=
    (takeWhile_of_noFragment free).trans
      ((takeWhile_of_noFragment inside).trans again).symm
  simp only [pathOf, same]

/-- The target of a request which the document route answers has one segment
behind its directory, and that segment names the source. -/
theorem documentTarget
    (accepted : validatedContainerTarget rawUrl .style = some target)
    (routed : documentSource decode (pathOf target) = some source) :
    ∃ segment, rawPath target = pathWith ["style".toList, segment] ∧
      TargetSegment segment ∧ unsafePathSegment segment = false ∧
      param decode (encodeSegment segment) = some source := by
  obtain ⟨_, valid⟩ := validated_of_accepted accepted
  obtain ⟨rest, shape⟩ := styleTarget_of_validated valid
  have all : ∀ segment ∈ "style".toList :: rest, TargetSegment segment :=
    List.forall_mem_cons.mpr ⟨plainSegment_style.target, shape.targets⟩
  have passed : ∀ segment ∈ "style".toList :: rest,
      unsafePathSegment segment = false :=
    List.forall_mem_cons.mpr ⟨by decide +kernel, shape.passed⟩
  have parts : (pathOf target).splitOn '/' =
      [] :: "style".toList :: rest.map encodeSegment := by
    rw [pathOf_rawPath valid.noFragment, shape.path,
      pathOf_pathWith (List.cons_ne_nil _ _) all passed, List.map_cons,
      plainSegment_style.encoded]
    apply splitOn_pathWith (List.cons_ne_nil _ _)
    refine List.forall_mem_cons.mpr ⟨by decide, ?_⟩
    intro segment member
    obtain ⟨raw, known, rfl⟩ := List.mem_map.mp member
    exact slash_notMem_encodeSegment (free_of_target shape.targets raw known)
  cases rest with
  | nil => exact absurd rfl shape.nonempty
  | cons segment others =>
      cases others with
      | nil =>
          refine ⟨segment, shape.path, shape.targets _ List.mem_cons_self,
            shape.passed _ List.mem_cons_self, ?_⟩
          simpa only [documentSource, parts, List.map_cons, List.map_nil,
            if_true] using routed
      | cons next others =>
          simp only [documentSource, parts, List.map_cons] at routed
          cases routed

/-- A sprite reference of the served document on its way. -/
theorem proxiedUrl_sprite {page : Origin} {mount : Mount}
    {allowed : String → Bool} {service : Service Json}
    (accepted : validatedContainerTarget rawUrl .style = some target)
    (routed : documentSource decode (pathOf target) = some source)
    {entry : Nat × String × StyleAssetKind}
    (known : entry ∈ spriteVariants) :
    proxiedUrl decode page mount allowed service
        (servedSprite page mount target ++ entry.2.1) =
      assetUrl allowed service source (.sprite entry.1) := by
  obtain ⟨segment, path, targets, passed, read⟩ :=
    documentTarget accepted routed
  have marks : ∀ char ∈ "sprite".toList ++ entry.2.1.toList,
      char.isAlphanum = true ∨ char ∈ "._-@".toList := by
    have checked : spriteVariants.all (fun entry =>
        ("sprite".toList ++ entry.2.1.toList).all fun char =>
          char.isAlphanum || "._-@".toList.contains char) = true := by
      decide
    intro char member
    have found := List.all_eq_true.mp
      (List.all_eq_true.mp checked entry known) char member
    simpa using found
  have undotted : "sprite".toList ++ entry.2.1.toList ≠ ".".toList ∧
      "sprite".toList ++ entry.2.1.toList ≠ "..".toList := by
    constructor
    · intro same
      exact absurd (List.cons.inj same).1 (by decide)
    · intro same
      exact absurd (List.cons.inj same).1 (by decide)
  have spritePlain : PlainSegment ("sprite".toList ++ entry.2.1.toList) :=
    plainSegment_of_marks fun char member => (marks char member).imp_right
      fun mark => List.mem_cons_of_mem '%' mark
  have spritePassed := passed_of_marks marks undotted
  have shape : (servedSprite page mount target ++ entry.2.1).toList =
      page.text.toList ++ (mount.text.toList ++ pathWith ["style".toList,
        segment, "sprite".toList ++ entry.2.1.toList]) := by
    simp only [servedSprite, String.toList_append, String.toList_ofList, path,
      pathWith, List.intercalate_cons_cons, List.intercalate_singleton,
      List.append_assoc]
    simp only [List.cons_append, List.append_assoc]
    rfl
  have behind : ∀ part ∈ [segment, "sprite".toList ++ entry.2.1.toList],
      TargetSegment part ∧ unsafePathSegment part = false := by
    intro part member
    simp only [List.mem_cons, List.not_mem_nil, or_false] at member
    rcases member with rfl | rfl
    · exact ⟨targets, passed⟩
    · exact ⟨spritePlain.target, spritePassed⟩
  have all : ∀ part ∈ ["style".toList, segment,
      "sprite".toList ++ entry.2.1.toList],
      TargetSegment part ∧ unsafePathSegment part = false :=
    List.forall_mem_cons.mpr
      ⟨⟨plainSegment_style.target, by decide +kernel⟩, behind⟩
  have safe : ¬ [segment, "sprite".toList ++ entry.2.1.toList].any
      unsafePathSegment = true := by
    rw [Bool.not_eq_true, List.any_eq_false]
    intro part member
    rw [(behind part member).2]
    exact Bool.false_ne_true
  rw [proxiedUrl, shape, mountedUrl_absolute, Option.bind_some,
    validated_pathWith (List.cons_ne_nil _ _) fun part member =>
      (behind part member).1, if_neg safe, Option.bind_some,
    pathOf_pathWith (List.cons_ne_nil _ _)
      (fun part member => (all part member).1)
      fun part member => (all part member).2]
  simp only [List.map_cons, List.map_nil, plainSegment_style.encoded,
    spritePlain.encoded]
  rw [routedUrl, styleRoute_sprite known
    (slash_notMem_encodeSegment fun slash => (targets '/' slash).1 rfl) read,
    Option.bind_some]

end Document

end ChartLocker.Plugin.StyleProxy
