import ChartLocker.Library.EntityTag
import ChartLocker.Library.Trimming

/-!
# The entity tags of the archive route

`entityTagList` walks over a list of entity tags, and `matchesIfNoneMatch`
compares each of them weakly with the current tag.
-/

namespace ChartLocker.Plugin.PmtilesRoutes

open Library Trimming

/-- The content of a quoted string behind its opening quote, and the text
behind its closing quote. -/
def quotedContent (legal : Char → Bool) :
    List Char → Option (List Char × List Char)
  | [] => none
  | head :: rest =>
      if head = '"' then
        some ([], rest)
      else if legal head then
        (quotedContent legal rest).map fun read => (head :: read.1, read.2)
      else
        none

/-- The class of characters in the expression of `weakEntityTag`. -/
def isLatinEtagc (char : Char) : Bool :=
  isEtagc char && decide (char.toNat ≤ 0xff)

/-- A text behind the mark of a weak tag, if it has one. -/
def withoutMark (text : List Char) : List Char :=
  if text.take 2 = ['W', '/'] then text.drop 2 else text

/-- `/^(?:W\/)?("[\x21\x23-\x7e\x80-\xff]*")$/`. -/
def weakEntityTag (value : List Char) : Option (List Char) :=
  match withoutMark (ecmaTrim value) with
  | '"' :: rest =>
      match quotedContent isLatinEtagc rest with
      | some (content, []) => some ('"' :: (content ++ ['"']))
      | _ => none
  | _ => none

/-- One tag at the front of a list, and the text behind it. -/
def readTag (text : List Char) : Option (List Char × List Char) :=
  match withoutMark text with
  | '"' :: rest =>
      (quotedContent isEtagc rest).map fun read =>
        (text.take (text.length - read.2.length), read.2)
  | _ => none

def dropBlank (text : List Char) : List Char :=
  text.dropWhile fun char => char == ' ' || char == '\t'

theorem length_quotedContent {legal : Char → Bool}
    {text content behind : List Char}
    (read : quotedContent legal text = some (content, behind)) :
    behind.length < text.length := by
  induction text generalizing content with
  | nil => cases read
  | cons head rest induction =>
      rw [quotedContent] at read
      rw [List.length_cons]
      split at read
      · cases read
        exact Nat.lt_succ_self _
      · split at read
        · obtain ⟨⟨inner, later⟩, found, same⟩ := Option.map_eq_some_iff.mp read
          cases same
          exact (induction found).trans (Nat.lt_succ_self _)
        · cases read

theorem length_withoutMark (text : List Char) :
    (withoutMark text).length ≤ text.length := by
  unfold withoutMark
  split
  · rw [List.length_drop]
    exact Nat.sub_le _ _
  · exact Nat.le_refl _

theorem length_readTag {text tag behind : List Char}
    (read : readTag text = some (tag, behind)) :
    behind.length < text.length := by
  unfold readTag at read
  split at read
  · next rest found =>
      obtain ⟨⟨inner, later⟩, content, same⟩ := Option.map_eq_some_iff.mp read
      cases same
      have marked := length_withoutMark text
      have quoted := length_quotedContent content
      rw [found, List.length_cons] at marked
      calc
        later.length < rest.length := quoted
        _ < text.length := marked
  · cases read

theorem length_dropBlank (text : List Char) :
    (dropBlank text).length ≤ text.length :=
  List.length_dropWhile_le _ _

/-- The tags of a list from the place on which the loop has reached. -/
def entityTagList (raw : List Char) : Option (List (List Char)) :=
  if raw = [] then
    none
  else
    match _found : readTag (dropBlank raw) with
    | none => none
    | some (tag, behind) =>
        match _later : dropBlank behind with
        | [] => some [tag]
        | head :: rest =>
            if head = ',' then
              (entityTagList rest).map (tag :: ·)
            else
              none
termination_by raw.length
decreasing_by
  have first := length_readTag _found
  have before := length_dropBlank raw
  have after := length_dropBlank behind
  rw [_later, List.length_cons] at after
  omega

/-- GET and HEAD use weak comparison for every entity tag of
If-None-Match. -/
def matchesIfNoneMatch (raw : Option (List Char)) (etag : List Char) : Bool :=
  if raw.map ecmaTrim = some ['*'] then
    true
  else
    match raw, weakEntityTag etag with
    | some raw, some current =>
        ((entityTagList raw).getD []).any fun candidate =>
          weakEntityTag candidate == some current
    | _, _ => false

/-! ## One tag -/

section Tags

variable {text content behind : List Char} {legal : Char → Bool}

theorem quotedContent_append (closed : legal '"' = false)
    (every : content.all legal = true) :
    quotedContent legal (content ++ '"' :: behind) =
      some (content, behind) := by
  induction content with
  | nil => rfl
  | cons head content induction =>
      rw [List.all_cons, Bool.and_eq_true] at every
      have different : head ≠ '"' := by
        rintro rfl
        rw [closed] at every
        exact Bool.false_ne_true every.1
      rw [List.cons_append, quotedContent, if_neg different, if_pos every.1,
        induction every.2]
      rfl

theorem eq_append_of_quotedContent
    (read : quotedContent legal text = some (content, behind)) :
    text = content ++ '"' :: behind ∧ content.all legal = true := by
  induction text generalizing content with
  | nil => cases read
  | cons head text induction =>
      rw [quotedContent] at read
      split at read
      · next quote =>
          cases read
          rw [quote]
          exact ⟨rfl, rfl⟩
      · split at read
        · next plain =>
            obtain ⟨⟨inner, later⟩, found, same⟩ :=
              Option.map_eq_some_iff.mp read
            cases same
            obtain ⟨whole, every⟩ := induction found
            rw [whole, List.all_cons, plain, every]
            exact ⟨rfl, rfl⟩
        · cases read

theorem withoutMark_text (tag : EntityTag) (rest : List Char) :
    withoutMark (tag.text ++ rest) = tag.opaqueTag ++ rest := by
  unfold EntityTag.text EntityTag.weakPrefix
  cases tag.weak with
  | true => rfl
  | false =>
      unfold withoutMark EntityTag.opaqueTag
      rw [if_neg Bool.false_ne_true, List.nil_append, List.cons_append]
      apply if_neg
      intro marked
      rw [List.take_succ_cons] at marked
      exact absurd (List.cons.inj marked).1 (by decide)

/-- Before what is left without a mark stands either nothing or the mark. -/
theorem eq_append_withoutMark (text : List Char) :
    ∃ weak : Bool,
      text = (if weak then ['W', '/'] else []) ++ withoutMark text := by
  unfold withoutMark
  split
  · next marked =>
      refine ⟨true, ?_⟩
      rw [if_pos rfl, ← marked, List.take_append_drop]
  · exact ⟨false, rfl⟩

theorem readTag_append (tag : EntityTag) :
    readTag (tag.text ++ behind) = some (tag.text, behind) := by
  have content : quotedContent isEtagc
      ((tag.content ++ ['"']) ++ behind) = some (tag.content, behind) := by
    rw [List.append_assoc]
    exact quotedContent_append (by decide) tag.legal
  have read : readTag (tag.text ++ behind) =
      (quotedContent isEtagc ((tag.content ++ ['"']) ++ behind)).map
        fun read => ((tag.text ++ behind).take
          ((tag.text ++ behind).length - read.2.length), read.2) := by
    unfold readTag
    rw [withoutMark_text]
    rfl
  rw [read, content, Option.map_some, List.length_append,
    Nat.add_sub_cancel, List.take_left]

theorem exists_of_readTag {found : List Char}
    (read : readTag text = some (found, behind)) :
    ∃ tag : EntityTag, found = tag.text ∧ text = tag.text ++ behind := by
  obtain ⟨weak, whole⟩ := eq_append_withoutMark text
  have parsed := read
  unfold readTag at parsed
  split at parsed
  · next rest unmarked =>
      obtain ⟨⟨inner, later⟩, quoted, _⟩ := Option.map_eq_some_iff.mp parsed
      obtain ⟨parts, every⟩ := eq_append_of_quotedContent quoted
      let tag : EntityTag := ⟨weak, inner, every⟩
      have spelled : text = tag.text ++ later := by
        rw [whole, unmarked, parts]
        simp [tag, EntityTag.text, EntityTag.weakPrefix, EntityTag.opaqueTag]
      have printed : readTag (tag.text ++ later) = some (tag.text, later) :=
        readTag_append tag
      rw [← spelled, read] at printed
      obtain ⟨rfl, rfl⟩ := Prod.mk.inj (Option.some.inj printed)
      exact ⟨tag, rfl, spelled⟩
  · cases parsed

end Tags

/-! ## Lists of tags -/

theorem entityTagList_eq (raw : List Char) :
    entityTagList raw =
      if raw = [] then
        none
      else
        (readTag (dropBlank raw)).bind fun read =>
          match dropBlank read.2 with
          | [] => some [read.1]
          | head :: rest =>
              if head = ',' then
                (entityTagList rest).map (read.1 :: ·)
              else
                none := by
  rw [entityTagList]
  split
  · rfl
  · split
    · next missing =>
        rw [missing]
        rfl
    · next tag behind found =>
        rw [found, Option.bind_some]
        dsimp only
        split <;> next later => rw [later]

theorem dropBlank_append {blank rest : List Char}
    (blanks : isBlank blank = true)
    (visible : ∀ char ∈ rest.head?, char ≠ ' ' ∧ char ≠ '\t') :
    dropBlank (blank ++ rest) = rest := by
  unfold dropBlank
  rw [List.dropWhile_append_of_pos (List.all_eq_true.mp blanks)]
  cases rest with
  | nil => rfl
  | cons head rest =>
      obtain ⟨noSpace, noTab⟩ := visible head rfl
      apply List.dropWhile_cons_of_neg
      simp [noSpace, noTab]

theorem exists_dropBlank (text : List Char) :
    ∃ blank, isBlank blank = true ∧ text = blank ++ dropBlank text :=
  ⟨_, List.all_takeWhile, List.takeWhile_append_dropWhile.symm⟩

theorem visible_text (tag : EntityTag) (rest : List Char) :
    ∀ char ∈ (tag.text ++ rest).head?, char ≠ ' ' ∧ char ≠ '\t' := by
  intro char first
  unfold EntityTag.text EntityTag.weakPrefix at first
  cases weak : tag.weak with
  | true =>
      rw [weak] at first
      cases first
      decide
  | false =>
      rw [weak] at first
      cases first
      decide

/-- The tag of an element is read with the white space before it. -/
theorem readTag_element (element : TagElement) (rest : List Char) :
    element.text ++ rest ≠ [] ∧
      readTag (dropBlank (element.text ++ rest)) =
        some (element.tag.text, element.after ++ rest) := by
  have spelled : element.text ++ rest =
      element.before ++ (element.tag.text ++ (element.after ++ rest)) := by
    simp [TagElement.text]
  rw [spelled, dropBlank_append element.blankBefore (visible_text _ _)]
  refine ⟨?_, readTag_append element.tag⟩
  intro empty
  have marks := List.append_eq_nil_iff.mp (List.append_eq_nil_iff.mp
    (List.append_eq_nil_iff.mp empty).2).1
  exact List.cons_ne_nil _ _ marks.2

theorem entityTagList_last (element : TagElement) :
    entityTagList element.text = some [element.tag.text] := by
  obtain ⟨nonempty, read⟩ := readTag_element element []
  have ends : dropBlank (element.after ++ []) = [] :=
    dropBlank_append element.blankAfter (by simp)
  rw [← List.append_nil element.text, entityTagList_eq, if_neg nonempty, read,
    Option.bind_some, ends]

theorem entityTagList_comma (element : TagElement) (later : List Char) :
    entityTagList (element.text ++ ',' :: later) =
      (entityTagList later).map (element.tag.text :: ·) := by
  obtain ⟨nonempty, read⟩ := readTag_element element (',' :: later)
  have comma : dropBlank (element.after ++ ',' :: later) = ',' :: later :=
    dropBlank_append element.blankAfter (by simp)
  rw [entityTagList_eq, if_neg nonempty, read, Option.bind_some, comma]
  exact if_pos rfl

theorem entityTagList_text (first : TagElement) (others : List TagElement) :
    entityTagList (TagField.tags first others).text =
      some ((first :: others).map fun element => element.tag.text) := by
  induction others generalizing first with
  | nil =>
      rw [TagField.text_singleton, entityTagList_last]
      rfl
  | cons next others induction =>
      rw [TagField.text_cons, entityTagList_comma, induction]
      rfl

/-- What the loop accepts is the text of a list. -/
theorem exists_of_entityTagList {raw : List Char} {tags : List (List Char)}
    (accepted : entityTagList raw = some tags) :
    ∃ first others, raw = (TagField.tags first others).text ∧
      tags = (first :: others).map fun element => element.tag.text := by
  induction counted : raw.length using Nat.strong_induction_on
    generalizing raw tags with
  | _ count induction =>
      rw [entityTagList_eq] at accepted
      split at accepted
      · cases accepted
      · obtain ⟨⟨found, behind⟩, read, accepted⟩ :=
          Option.bind_eq_some_iff.mp accepted
        obtain ⟨before, blankBefore, whole⟩ := exists_dropBlank raw
        obtain ⟨after, blankAfter, rest⟩ := exists_dropBlank behind
        obtain ⟨tag, same, parts⟩ := exists_of_readTag read
        let element : TagElement :=
          ⟨before, tag, after, blankBefore, blankAfter⟩
        have spelled : raw = element.text ++ dropBlank behind := by
          rw [whole, parts, TagElement.text, List.append_assoc,
            List.append_assoc, ← rest]
        dsimp only at accepted
        split at accepted
        · next ends =>
            cases accepted
            refine ⟨element, [], ?_, ?_⟩
            · rw [spelled, ends, List.append_nil, TagField.text_singleton]
            · rw [same]
              rfl
        · next head later behindBlank =>
            split at accepted
            · next comma =>
                obtain ⟨more, acceptedLater, rfl⟩ :=
                  Option.map_eq_some_iff.mp accepted
                have shorter : later.length < count := by
                  rw [← counted, spelled, behindBlank, List.length_append,
                    List.length_cons]
                  omega
                obtain ⟨next, others, text, tags⟩ :=
                  induction later.length shorter acceptedLater rfl
                refine ⟨element, next :: others, ?_, ?_⟩
                · rw [spelled, behindBlank, comma, TagField.text_cons, text]
                · rw [same, tags]
                  rfl
            · cases accepted

theorem entityTagList_eq_some {raw : List Char} {tags : List (List Char)} :
    entityTagList raw = some tags ↔
      ∃ first others, raw = (TagField.tags first others).text ∧
        tags = (first :: others).map fun element => element.tag.text := by
  constructor
  · exact exists_of_entityTagList
  · intro ⟨first, others, text, elements⟩
    rw [text, elements]
    exact entityTagList_text first others

/-! ## The comparison -/

/-- A tag of characters which a header can have. -/
def IsLatin (tag : EntityTag) : Prop :=
  ∀ char ∈ tag.content, char.toNat ≤ 0xff

/-- The wildcard, with any white space of ECMAScript around it. -/
def IsWildcard (raw : List Char) : Prop :=
  ∃ before after, before.all isEcmaWhite = true ∧
    after.all isEcmaWhite = true ∧ raw = before ++ ['*'] ++ after

theorem ecmaTrim_eq_wildcard {raw : List Char} :
    ecmaTrim raw = ['*'] ↔ IsWildcard raw := by
  apply trimBy_eq_iff
  constructor
  · intro char first
    cases first
    decide
  · intro char last
    cases last
    decide

theorem ecmaTrim_text (tag : EntityTag) : ecmaTrim tag.text = tag.text := by
  have bare : Bare isEcmaWhite tag.text := by
    constructor
    · intro char first
      unfold EntityTag.text EntityTag.weakPrefix at first
      cases weak : tag.weak with
      | true =>
          rw [weak] at first
          cases first
          decide
      | false =>
          rw [weak] at first
          cases first
          decide
    · intro char last
      have final : tag.text.getLast? = some '"' := by
        rw [EntityTag.text, EntityTag.opaqueTag, List.getLast?_append,
          List.getLast?_cons, List.getLast?_append]
        rfl
      rw [final] at last
      cases last
      decide
  have padded := trimBy_padded bare (List.all_nil (f := isEcmaWhite))
    (List.all_nil (f := isEcmaWhite))
  rw [List.nil_append, List.append_nil] at padded
  exact padded

section Compare

variable {tag current : EntityTag}

theorem weakEntityTag_eq (tag : EntityTag) :
    weakEntityTag tag.text =
      match quotedContent isLatinEtagc (tag.content ++ ['"']) with
      | some (content, []) => some ('"' :: (content ++ ['"']))
      | _ => none := by
  have unmarked := withoutMark_text tag []
  rw [List.append_nil, List.append_nil] at unmarked
  unfold weakEntityTag
  rw [ecmaTrim_text, unmarked]
  rfl

theorem weakEntityTag_of_latin (latin : IsLatin tag) :
    weakEntityTag tag.text = some tag.opaqueTag := by
  have every : tag.content.all isLatinEtagc = true := by
    apply List.all_eq_true.mpr
    intro char member
    unfold isLatinEtagc
    rw [List.all_eq_true.mp tag.legal char member,
      decide_eq_true (latin char member)]
    rfl
  rw [weakEntityTag_eq, quotedContent_append (by decide) every]
  rfl

theorem eq_opaqueTag_of_weakEntityTag {found : List Char}
    (read : weakEntityTag tag.text = some found) : found = tag.opaqueTag := by
  rw [weakEntityTag_eq] at read
  split at read
  · next content quoted =>
      obtain ⟨whole, _⟩ := eq_append_of_quotedContent quoted
      cases read
      rw [EntityTag.opaqueTag, whole]
  · cases read

/-- The code compares as the weak comparison does, because the current tag
has no character which the expression refuses. -/
theorem weakEntityTag_eq_iff (latin : IsLatin current) :
    weakEntityTag tag.text = some current.opaqueTag ↔
      tag.WeaklyEqual current := by
  constructor
  · intro read
    exact EntityTag.opaqueTag_inj.mp (eq_opaqueTag_of_weakEntityTag read).symm
  · intro equal
    have alike : IsLatin tag := by
      unfold IsLatin
      rw [show tag.content = current.content from equal]
      exact latin
    rw [weakEntityTag_of_latin alike, EntityTag.opaqueTag_inj.mpr equal]

theorem matchesIfNoneMatch_iff (latin : IsLatin current) {raw : List Char} :
    matchesIfNoneMatch (some raw) current.text = true ↔
      IsWildcard raw ∨ ∃ first others,
        raw = (TagField.tags first others).text ∧
          (TagField.tags first others).Lists current := by
  have trimmed : (some raw).map ecmaTrim = some ['*'] ↔ IsWildcard raw := by
    rw [Option.map_some, Option.some.injEq, ecmaTrim_eq_wildcard]
  unfold matchesIfNoneMatch
  rw [weakEntityTag_of_latin latin]
  split
  · next wildcard => exact ⟨fun _ => .inl (trimmed.mp wildcard), fun _ => rfl⟩
  · next plain =>
      rw [List.any_eq_true]
      constructor
      · intro ⟨candidate, member, equal⟩
        cases parsed : entityTagList raw with
        | none =>
            rw [parsed] at member
            cases member
        | some tags =>
            obtain ⟨first, others, text, elements⟩ :=
              entityTagList_eq_some.mp parsed
            rw [parsed, Option.getD_some, elements] at member
            obtain ⟨element, listed, same⟩ := List.mem_map.mp member
            rw [← same, beq_iff_eq] at equal
            exact .inr ⟨first, others, text, element, listed,
              (weakEntityTag_eq_iff latin).mp equal⟩
      · intro either
        obtain wildcard | ⟨first, others, text, element, listed, equal⟩ :=
          either
        · exact absurd (trimmed.mpr wildcard) plain
        · refine ⟨element.tag.text, ?_, ?_⟩
          · rw [text, entityTagList_text, Option.getD_some]
            exact List.mem_map_of_mem listed
          · rw [beq_iff_eq]
            exact (weakEntityTag_eq_iff latin).mpr equal

end Compare

end ChartLocker.Plugin.PmtilesRoutes
