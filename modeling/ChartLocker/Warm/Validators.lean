import ChartLocker.Library.EntityTag
import ChartLocker.Warm.Serve

/-!
# The container's conditional requests

`etag_matches` splits the header at every comma, also at those inside a tag.
A part of a tag is never an entity tag, but it can be the wildcard.
-/

namespace ChartLocker.Warm

open Library

/-! ## Trimming -/

theorem entityTag_sublist (value : List Char) :
    (entityTag value).Sublist value := by
  have trimmed : (trim value).Sublist value := Trimming.trimBy_sublist _ value
  refine List.Sublist.trans ?_ trimmed
  unfold entityTag
  split
  · next tag found =>
    rw [found]
    exact (List.sublist_cons_self _ _).trans (List.sublist_cons_self _ _)
  · exact List.Sublist.refl _

theorem whitespace_of_isBlank {text : List Char} (blank : isBlank text = true) :
    text.all Config.isWhitespace = true := by
  apply List.all_eq_true.mpr
  intro char member
  rcases char_of_isBlank blank member with rfl | rfl <;> decide

/-! ## Parts of a header -/

/-- What `etag_matches` asks of one part. -/
def acceptsPart (current part : List Char) : Bool :=
  trim part == ['*'] || entityTag (trim part) == entityTag current

theorem etagMatches_eq (headerValue current : String) :
    etagMatches headerValue current =
      (headerValue.toList.splitOn ',').any (acceptsPart current.toList) :=
  rfl

theorem trim_text (tag : EntityTag) {before after : List Char}
    (blankBefore : isBlank before = true) (blankAfter : isBlank after = true) :
    trim (before ++ tag.text ++ after) = tag.text := by
  have ends : tag.text.getLast? = some '"' := by
    rw [EntityTag.text, EntityTag.opaqueTag, ← List.cons_append,
      ← List.append_assoc, List.getLast?_concat]
  have starts : tag.text.head? = some (if tag.weak then 'W' else '"') := by
    unfold EntityTag.text EntityTag.weakPrefix
    cases tag.weak <;> rfl
  apply Trimming.trimBy_padded _ (whitespace_of_isBlank blankBefore)
    (whitespace_of_isBlank blankAfter)
  constructor
  · rw [starts]
    rintro _ ⟨⟩
    split <;> decide
  · rw [ends]
    rintro _ ⟨⟩
    decide

theorem entityTag_text (tag : EntityTag) :
    entityTag tag.text = tag.opaqueTag := by
  have whole : trim ([] ++ tag.text ++ []) = tag.text :=
    trim_text tag rfl rfl
  rw [List.nil_append, List.append_nil] at whole
  unfold entityTag
  rw [whole]
  unfold EntityTag.text EntityTag.weakPrefix
  cases tag.weak <;> rfl

/-- A part with one quote at most is not an entity tag. -/
theorem acceptsPart_of_count {current : EntityTag} {part : List Char}
    (quotes : part.count '"' ≤ 1) :
    acceptsPart current.text part = (trim part == ['*']) := by
  have different : entityTag (trim part) ≠ current.opaqueTag := by
    intro same
    have trimmed : (trim part).Sublist part := Trimming.trimBy_sublist _ part
    have fewer := ((entityTag_sublist (trim part)).trans trimmed).count_le '"'
    rw [same, current.count_quote_opaqueTag] at fewer
    omega
  rw [acceptsPart, entityTag_text, beq_eq_false_iff_ne.mpr different,
    Bool.or_false]

/-- A quote is not trimmed. -/
theorem trim_ne_of_quote {part : List Char} (quote : '"' ∈ part) :
    trim part ≠ ['*'] := by
  intro trimmed
  have kept : '"' ∈ trim part :=
    Trimming.mem_trimBy_of_plain (by decide) quote
  rw [trimmed] at kept
  exact absurd kept (by decide)

/-! ## The parts of a tag -/

/-- A part between two commas of a tag is the wildcard. -/
def hidesWildcard (tag : EntityTag) : Bool :=
  (tag.content.splitOn ',').tail.dropLast.any fun part => trim part == ['*']

theorem acceptsPart_whole (element : TagElement) (current : EntityTag) :
    acceptsPart current.text element.text = true ↔
      element.tag.WeaklyEqual current := by
  have trimmed : trim element.text = element.tag.text :=
    trim_text element.tag element.blankBefore element.blankAfter
  have quote : '"' ∈ element.text := by
    simp [TagElement.text, EntityTag.text, EntityTag.opaqueTag]
  rw [acceptsPart, beq_eq_false_iff_ne.mpr (trim_ne_of_quote quote),
    Bool.false_or, trimmed, entityTag_text, entityTag_text, beq_iff_eq]
  exact EntityTag.opaqueTag_inj

theorem comma_notMem_of_isBlank {text : List Char}
    (blank : isBlank text = true) : ',' ∉ text := by
  intro member
  rcases char_of_isBlank blank member with same | same <;> cases same

theorem quote_notMem_of_isBlank {text : List Char}
    (blank : isBlank text = true) : '"' ∉ text := by
  intro member
  rcases char_of_isBlank blank member with same | same <;> cases same

/-- The parts of one element of the list. -/
theorem any_acceptsPart_iff (element : TagElement) (current : EntityTag) :
    (element.text.splitOn ',').any (acceptsPart current.text) = true ↔
      hidesWildcard element.tag = true ∨
        (',' ∉ element.tag.content ∧ element.tag.WeaklyEqual current) := by
  obtain ⟨first, others, parts⟩ := List.exists_cons_of_ne_nil
    (List.splitOn_ne_nil ',' element.tag.content)
  have spelled : [','].intercalate (first :: others) = element.tag.content := by
    rw [← parts, List.intercalate_splitOn]
  have beforeFree :
      ',' ∉ element.before ++ element.tag.weakPrefix ++ ['"'] := by
    have blank := comma_notMem_of_isBlank element.blankBefore
    have weak := element.tag.comma_notMem_weakPrefix
    simp [blank, weak]
  have afterFree : ',' ∉ '"' :: element.after := by
    have blank := comma_notMem_of_isBlank element.blankAfter
    simp [blank]
  have whole : element.text =
      element.before ++ element.tag.weakPrefix ++ ['"'] ++
        element.tag.content ++ '"' :: element.after := by
    simp [TagElement.text, EntityTag.text, EntityTag.opaqueTag]
  rcases List.eq_nil_or_concat others with rfl | ⟨inner, last, rfl⟩
  · have free : ',' ∉ element.tag.content := by
      rw [← spelled, List.intercalate_singleton]
      exact Text.notMem_of_mem_splitOn (parts ▸ List.mem_cons_self)
    have single : ',' ∉ element.text := by
      rw [whole]
      exact List.not_mem_append (List.not_mem_append beforeFree free) afterFree
    have visible : hidesWildcard element.tag = false := by
      rw [hidesWildcard, parts]
      rfl
    rw [List.splitOn_eq_singleton single, List.any_cons, List.any_nil,
      Bool.or_false, acceptsPart_whole, visible]
    simp [free]
  · rw [List.concat_eq_append] at parts spelled
    have comma : ',' ∈ element.tag.content := by
      rw [← spelled, List.intercalate_cons_of_ne_nil (by simp)]
      simp
    have noQuote : ∀ part ∈ first :: (inner ++ [last]), '"' ∉ part := by
      intro part member quote
      rw [← parts] at member
      exact element.tag.quote_notMem_content
        (Text.mem_of_mem_splitOn member quote)
    have firstQuotes := noQuote first List.mem_cons_self
    have lastQuotes := noQuote last (List.mem_cons_of_mem _
      (List.mem_append_right _ List.mem_cons_self))
    have front : acceptsPart current.text (element.before ++
        element.tag.weakPrefix ++ ['"'] ++ first) = false := by
      rw [acceptsPart_of_count]
      · exact beq_eq_false_iff_ne.mpr (trim_ne_of_quote (by simp))
      · rw [List.count_append, List.count_append, List.count_append,
          List.count_eq_zero_of_not_mem firstQuotes,
          List.count_eq_zero_of_not_mem element.tag.quote_notMem_weakPrefix,
          List.count_eq_zero_of_not_mem
            (quote_notMem_of_isBlank element.blankBefore)]
        decide
    have back : acceptsPart current.text (last ++ '"' :: element.after) =
        false := by
      rw [acceptsPart_of_count]
      · exact beq_eq_false_iff_ne.mpr (trim_ne_of_quote (by simp))
      · rw [List.count_append, List.count_cons_self,
          List.count_eq_zero_of_not_mem lastQuotes,
          List.count_eq_zero_of_not_mem
            (quote_notMem_of_isBlank element.blankAfter)]
    have between : inner.any (acceptsPart current.text) =
        hidesWildcard element.tag := by
      have accepts : ∀ part ∈ inner,
          acceptsPart current.text part = (trim part == ['*']) := by
        intro part member
        apply acceptsPart_of_count
        rw [List.count_eq_zero_of_not_mem (noQuote part
          (List.mem_cons_of_mem _ (List.mem_append_left _ member)))]
        exact Nat.zero_le 1
      rw [hidesWildcard, parts, List.tail_cons, List.dropLast_concat,
        Bool.eq_iff_iff, List.any_eq_true, List.any_eq_true]
      exact exists_congr fun part => and_congr_right fun member => by
        rw [accepts part member]
    rw [whole, Text.splitOn_between beforeFree afterFree parts, List.any_cons,
      List.any_append, List.any_cons, List.any_nil, front, back, between]
    simp [comma]

/-! ## The weak comparison -/

/-- `etag_matches` on a well-formed header. -/
theorem etagMatches_iff (field : TagField) (current : EntityTag) :
    etagMatches (String.ofList field.text) (String.ofList current.text) =
        true ↔
      field.elements = [] ∨ ∃ element ∈ field.elements,
        hidesWildcard element.tag = true ∨
          (',' ∉ element.tag.content ∧ element.tag.WeaklyEqual current) := by
  rw [etagMatches_eq, String.toList_ofList, String.toList_ofList]
  cases field with
  | any before after blankBefore blankAfter =>
      have single : ',' ∉ before ++ '*' :: after := by
        have free := comma_notMem_of_isBlank blankBefore
        have freeAfter := comma_notMem_of_isBlank blankAfter
        simp [free, freeAfter]
      have bare : Trimming.Bare Config.isWhitespace ['*'] :=
        Trimming.bare_of_forall (List.forall_mem_singleton.mpr rfl)
      have trimmed : trim (before ++ ['*'] ++ after) = ['*'] :=
        Trimming.trimBy_padded bare (whitespace_of_isBlank blankBefore)
          (whitespace_of_isBlank blankAfter)
      rw [List.append_assoc] at trimmed
      rw [TagField.text, List.splitOn_eq_singleton single, List.any_cons,
        List.any_nil, Bool.or_false, acceptsPart]
      simp [TagField.elements, show trim (before ++ '*' :: after) = ['*'] from
        trimmed]
  | tags first others =>
      rw [TagField.text, Text.splitOn_intercalate_flatMap _ (by simp),
        List.any_flatMap, List.any_map, List.any_eq_true]
      simp only [TagField.elements, List.cons_ne_nil, false_or,
        Function.comp_apply, any_acceptsPart_iff]

/-- An asterisk which stands alone between two commas of a listed tag is
covered by the current tag in the list, and stands in for a listed current
tag with a comma. -/
structure WildcardsHarmless (field : TagField) (current : EntityTag) :
    Prop where
  covered : (∃ element ∈ field.elements, hidesWildcard element.tag = true) →
    field.Lists current
  standsIn : ',' ∈ current.content → field.Lists current →
    ∃ element ∈ field.elements, hidesWildcard element.tag = true

/-- A listed tag with a comma is never found. -/
theorem accepted_iff {elements : List TagElement} {current : EntityTag} :
    (∃ element ∈ elements, hidesWildcard element.tag = true ∨
        (',' ∉ element.tag.content ∧ element.tag.WeaklyEqual current)) ↔
      (∃ element ∈ elements, hidesWildcard element.tag = true) ∨
        (',' ∉ current.content ∧
          ∃ element ∈ elements, element.tag.WeaklyEqual current) := by
  constructor
  · rintro ⟨element, member, hidden | ⟨free, same⟩⟩
    · exact .inl ⟨element, member, hidden⟩
    · exact .inr ⟨same ▸ free, element, member, same⟩
  · rintro (⟨element, member, hidden⟩ | ⟨free, element, member, same⟩)
    · exact ⟨element, member, .inl hidden⟩
    · exact ⟨element, member, .inr ⟨same ▸ free, same⟩⟩

/-- On a well-formed header, `etag_matches` is the weak comparison exactly if
the asterisks inside its tags are harmless. -/
theorem etagMatches_weak_iff (field : TagField) (current : EntityTag) :
    (etagMatches (String.ofList field.text) (String.ofList current.text) =
        true ↔ field.Matches current) ↔
      WildcardsHarmless field current := by
  rw [etagMatches_iff]
  cases field with
  | any before after blankBefore blankAfter =>
      refine ⟨fun _ => ⟨?_, ?_⟩, fun _ => ⟨fun _ => trivial, fun _ => .inl rfl⟩⟩
      · rintro ⟨element, member, _⟩
        exact absurd member List.not_mem_nil
      · rintro _ ⟨element, member, _⟩
        exact absurd member List.not_mem_nil
  | tags first others =>
      have nonempty : (TagField.tags first others).elements ≠ [] :=
        List.cons_ne_nil _ _
      have listed : (TagField.tags first others).Matches current ↔
          (TagField.tags first others).Lists current := Iff.rfl
      rw [listed, or_iff_right nonempty, accepted_iff]
      constructor
      · intro agrees
        constructor
        · exact fun hidden => agrees.mp (.inl hidden)
        · intro comma lists
          rcases agrees.mpr lists with hidden | ⟨free, _⟩
          · exact hidden
          · exact absurd comma free
      · intro harmless
        constructor
        · rintro (hidden | ⟨_, lists⟩)
          · exact harmless.covered hidden
          · exact lists
        · intro lists
          by_cases comma : ',' ∈ current.content
          · exact .inl (harmless.standsIn comma lists)
          · exact .inr ⟨comma, lists⟩

/-! ### A false match -/

def strongTag : EntityTag where
  weak := false
  content :=
    "ba7816bf8f01cfea414140de5dae2223b00361a396177a9cb410ff61f20015ad".toList
  legal := by decide +kernel

/-- The header `"a,*,b"`. -/
def starredField : TagField :=
  .tags ⟨[], ⟨false, "a,*,b".toList, by decide +kernel⟩, [], rfl, rfl⟩ []

/-- The client is told that its tile is current, whatever the tile. -/
theorem starred_tag_matches :
    etagMatches (String.ofList starredField.text)
        (String.ofList strongTag.text) = true ∧
      ¬starredField.Matches strongTag := by
  constructor
  · decide +kernel
  · rintro ⟨element, member, same⟩
    rw [List.mem_singleton.mp member] at same
    exact absurd same (by decide +kernel)

end ChartLocker.Warm
