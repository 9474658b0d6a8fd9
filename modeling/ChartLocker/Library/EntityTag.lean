import ChartLocker.Library.Text

/-!
# Entity tags

Entity tags and the lists of them in a conditional request, with the weak
comparison.  A character from `0x80` on stands for an octet of `obs-text`.
-/

namespace Library

/-- `etagc`. -/
def isEtagc (char : Char) : Bool :=
  decide (char.toNat = 0x21) ||
    decide (0x23 ≤ char.toNat ∧ char.toNat ≤ 0x7e) ||
    decide (0x80 ≤ char.toNat)

structure EntityTag where
  weak : Bool
  content : List Char
  legal : content.all isEtagc = true

namespace EntityTag

def opaqueTag (tag : EntityTag) : List Char :=
  '"' :: (tag.content ++ ['"'])

def weakPrefix (tag : EntityTag) : List Char :=
  if tag.weak then ['W', '/'] else []

def text (tag : EntityTag) : List Char :=
  tag.weakPrefix ++ tag.opaqueTag

/-- The weak comparison looks at the opaque parts only. -/
def WeaklyEqual (left right : EntityTag) : Prop :=
  left.content = right.content

instance (left right : EntityTag) : Decidable (left.WeaklyEqual right) :=
  inferInstanceAs (Decidable (left.content = right.content))

theorem quote_notMem_content (tag : EntityTag) : '"' ∉ tag.content := by
  intro member
  exact absurd (List.all_eq_true.mp tag.legal _ member) (by decide)

theorem quote_notMem_weakPrefix (tag : EntityTag) :
    '"' ∉ tag.weakPrefix := by
  unfold weakPrefix
  split <;> decide

theorem comma_notMem_weakPrefix (tag : EntityTag) :
    ',' ∉ tag.weakPrefix := by
  unfold weakPrefix
  split <;> decide

theorem opaqueTag_inj {left right : EntityTag} :
    left.opaqueTag = right.opaqueTag ↔ left.content = right.content := by
  constructor
  · intro same
    exact List.append_cancel_right (List.cons.inj same).2
  · intro same
    rw [opaqueTag, opaqueTag, same]

theorem count_quote_opaqueTag (tag : EntityTag) :
    tag.opaqueTag.count '"' = 2 := by
  rw [opaqueTag, List.count_cons_self, List.count_append,
    List.count_eq_zero_of_not_mem tag.quote_notMem_content]
  rfl

end EntityTag

/-! ## Lists of tags -/

/-- Optional whitespace. -/
def isBlank (text : List Char) : Bool :=
  text.all fun char => char == ' ' || char == '\t'

/-- A tag of a list, with the whitespace around it. -/
structure TagElement where
  before : List Char
  tag : EntityTag
  after : List Char
  blankBefore : isBlank before = true
  blankAfter : isBlank after = true

namespace TagElement

def text (element : TagElement) : List Char :=
  element.before ++ element.tag.text ++ element.after

end TagElement

theorem char_of_isBlank {text : List Char} (blank : isBlank text = true)
    {char : Char} (member : char ∈ text) : char = ' ' ∨ char = '\t' := by
  simpa using List.all_eq_true.mp blank char member

/-- A condition on the current tag: any tag, or one of a list. -/
inductive TagField where
  | any (before after : List Char) (blankBefore : isBlank before = true)
      (blankAfter : isBlank after = true)
  | tags (first : TagElement) (others : List TagElement)

namespace TagField

def elements : TagField → List TagElement
  | .any _ _ _ _ => []
  | .tags first others => first :: others

def text : TagField → List Char
  | .any before after _ _ => before ++ '*' :: after
  | .tags first others =>
      [','].intercalate ((first :: others).map TagElement.text)

theorem text_singleton (first : TagElement) :
    (tags first []).text = first.text :=
  List.intercalate_singleton

theorem text_cons (first next : TagElement) (others : List TagElement) :
    (tags first (next :: others)).text =
      first.text ++ ',' :: (tags next others).text := by
  change [','].intercalate
    (first.text :: next.text :: others.map TagElement.text) = _
  rw [List.intercalate_cons_cons, List.append_assoc]
  rfl

/-- Some tag of the list is weakly equal to the current one. -/
def Lists (field : TagField) (current : EntityTag) : Prop :=
  ∃ element ∈ field.elements, element.tag.WeaklyEqual current

/-- The condition is true of the current tag. -/
def Matches (field : TagField) (current : EntityTag) : Prop :=
  match field with
  | .any _ _ _ _ => True
  | .tags _ _ => field.Lists current

end TagField

end Library
