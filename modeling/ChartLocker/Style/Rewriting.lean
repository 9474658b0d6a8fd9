import ChartLocker.Library.JsonEdits
import ChartLocker.Library.PercentCoding
import ChartLocker.Style.Durable
import ChartLocker.Style.Keys

/-!
# The served style document

`style_doc` serves the upstream document with its glyphs and its learned
sources turned to the routes of the plugin.  What a client asks for through a
document is the same function of the document before and after; the lemmas
here say which members the rewriting changes, and which upstream URLs the
document itself names.
-/

namespace ChartLocker.Style

open Library Config

/-! ## The rewriting -/

/-- The glyphs member of the served document. -/
def servedGlyphs (base source : String) : String :=
  base ++ "/style/" ++ source ++ "/glyphs/{fontstack}/{range}.pbf"

/-- The one tile template of a served source. -/
def servedTiles (base source name : String) : String :=
  base ++ "/style/" ++ source ++ "/tiles/" ++ encodeFontstack name ++
    "/{z}/{x}/{y}"

/-- The edits of one learned source object. -/
def rewriteSource (base source name : String) (maxzoom : Option Nat)
    (members : List (String × Json)) : List (String × Json) :=
  let tiled := Json.insertMember (Json.removeMember members "url") "tiles"
    (.array [.string (servedTiles base source name)])
  match maxzoom with
  | some zoom =>
      if (Json.get (.object tiled) "maxzoom").isSome then
        tiled
      else
        Json.insertMember tiled "maxzoom" (.number (.unsigned zoom))
  | none => tiled

def learnedMaxzoom (content : StyleContent Json) (name : String) :
    Option Nat :=
  (content.sourceMaxzoom.find? fun entry => entry.1 == name).map Prod.snd

/-- The loop body of `style_doc`; `none` is the panic of an assignment to a
place in a value which has no members. -/
def rewriteEntry (base source : String) (content : StyleContent Json)
    (document : Json) (name : String) : Option Json :=
  (document.place "sources").bind fun sources =>
    (sources.place name).bind fun entry =>
      let edited := match entry with
        | .object members => .object (rewriteSource base source name
            (learnedMaxzoom content name) members)
        | other => other
      (sources.assign name edited).bind fun sources =>
        document.assign "sources" sources

/-- The rewriting of `style_doc`.  `names` are the learned sources in the
order in which the map yields them. -/
def rewriteStyle (base source : String) (content : StyleContent Json)
    (names : List String) (document : Json) : Option Json :=
  (if content.glyphs.isSome then
    document.assign "glyphs" (.string (servedGlyphs base source))
  else
    some document).bind fun document =>
      names.foldlM (rewriteEntry base source content) document

/-! ## What a document names -/

/-- One source of a document. -/
def sourceOf (document : Json) (name : String) : Option Json :=
  (document.get "sources").bind fun sources => sources.get name

def firstText (value : Option Json) : Option String :=
  ((value.bind Json.asArray).bind List.head?).bind Json.asString

/-- The tile template which a client takes for a source: its own, or else the
one of its TileJSON. -/
def firstTemplate (tilejson : String → Option Json) (document : Json)
    (name : String) : Option String :=
  (sourceOf document name).bind fun source =>
    if (source.get "tiles").isSome then
      firstText (source.get "tiles")
    else
      (((source.get "url").bind Json.asString).bind tilejson).bind
        fun answer => firstText (answer.get "tiles")

/-- What a client asks for through a style document. -/
inductive StyleResource where
  | tile (name : String) (z x y : Nat)
  | glyphs (fontstack : String) (start : Nat)
  | sprite (variant : Nat)

/-- The name of a glyph range, as the client fills it in. -/
def rangeName (start : Nat) : String :=
  start.repr ++ "-" ++ (start + 255).repr

/-- The URL under which a document offers a resource. -/
def resourceUrl (tilejson : String → Option Json) (document : Json) :
    StyleResource → Option String
  | .tile name z x y => (firstTemplate tilejson document name).map
      fun template => expandTileUrl template z x y
  | .glyphs fontstack start =>
      ((document.get "glyphs").bind Json.asString).map fun template =>
        expandGlyphUrl template fontstack (rangeName start ++ ".pbf")
  | .sprite variant =>
      ((document.get "sprite").bind Json.asString).bind fun sprite =>
        (Warm.spriteVariants.find? fun entry => entry.1 == variant).map
          fun entry => sprite ++ entry.2.1

/-! ## The members of the served document -/

section Entries

variable {base source name other : String} {content : StyleContent Json}
  {document next : Json} {fields : List (String × Json)}

theorem sourceOf_eq_some {entry : Json} :
    sourceOf document name = some entry ↔
      ∃ sources, document.get "sources" = some sources ∧
        sources.get name = some entry :=
  Option.bind_eq_some_iff

/-- What one round of the loop changes. -/
structure Retargeted (base source : String) (content : StyleContent Json)
    (name : String) (fields : List (String × Json))
    (document next : Json) : Prop where
  object : ∃ members, next = .object members
  member : ∀ member, member ≠ "sources" →
    next.get member = document.get member
  entry : sourceOf next name = some (.object (rewriteSource base source name
    (learnedMaxzoom content name) fields))
  others : ∀ other, other ≠ name →
    sourceOf next other = sourceOf document other

theorem rewriteEntry_spec
    (found : sourceOf document name = some (.object fields)) :
    ∃ next, rewriteEntry base source content document name = some next ∧
      Retargeted base source content name fields document next := by
  obtain ⟨sources, listed, entry⟩ := sourceOf_eq_some.mp found
  obtain ⟨members, rfl⟩ := Json.object_of_get listed
  obtain ⟨entries, rfl⟩ := Json.object_of_get entry
  refine ⟨.object (Json.insertMember members "sources" (.object
    (Json.insertMember entries name (.object (rewriteSource base source name
      (learnedMaxzoom content name) fields))))), ?_, ⟨_, rfl⟩, ?_, ?_, ?_⟩
  · simp only [rewriteEntry, Json.place_of_get listed, Option.bind_some,
      Json.place_of_get entry, Json.assign]
  · intro member different
    rw [Json.get_insertMember, if_neg different]
  · rw [sourceOf, Json.get_insertMember, if_pos rfl, Option.bind_some,
      Json.get_insertMember, if_pos rfl]
  · intro other different
    rw [sourceOf, Json.get_insertMember, if_pos rfl, Option.bind_some,
      Json.get_insertMember, if_neg different, sourceOf, listed,
      Option.bind_some]

/-- What the whole loop changes. -/
structure RetargetedAll (base source : String) (content : StyleContent Json)
    (names : List String) (document next : Json) : Prop where
  object : ∃ members, next = .object members
  member : ∀ member, member ≠ "sources" →
    next.get member = document.get member
  entry : ∀ name ∈ names, ∀ fields,
    sourceOf document name = some (.object fields) →
      sourceOf next name = some (.object (rewriteSource base source name
        (learnedMaxzoom content name) fields))
  others : ∀ other, other ∉ names →
    sourceOf next other = sourceOf document other

theorem foldlM_rewriteEntry {names : List String} (unique : names.Nodup)
    (object : ∃ members, document = .object members)
    (found : ∀ name ∈ names, ∃ fields,
      sourceOf document name = some (.object fields)) :
    ∃ next,
      names.foldlM (rewriteEntry base source content) document = some next ∧
        RetargetedAll base source content names document next := by
  induction names generalizing document with
  | nil =>
      refine ⟨document, rfl, object, fun _ _ => rfl, ?_, fun _ _ => rfl⟩
      intro name member
      cases member
  | cons name names induction =>
      rw [List.nodup_cons] at unique
      obtain ⟨fresh, unique⟩ := unique
      obtain ⟨fields, entry⟩ := found name List.mem_cons_self
      obtain ⟨middle, first, once⟩ :
          ∃ middle, rewriteEntry base source content document name =
              some middle ∧
            Retargeted base source content name fields document middle :=
        rewriteEntry_spec entry
      have kept : ∀ other ∈ names, ∃ fields,
          sourceOf middle other = some (.object fields) := by
        intro other member
        rw [once.others other fun same => fresh (same ▸ member)]
        exact found other (List.mem_cons_of_mem name member)
      obtain ⟨next, rest, later⟩ := induction unique once.object kept
      refine ⟨next, ?_, later.object, ?_, ?_, ?_⟩
      · rw [List.foldlM_cons, first]
        exact rest
      · intro member different
        rw [later.member member different, once.member member different]
      · intro other member others same
        rcases List.mem_cons.mp member with rfl | inside
        · obtain rfl : fields = others := by
            have equal := entry.symm.trans same
            simpa using equal
          rw [later.others other fresh]
          exact once.entry
        · apply later.entry other inside
          rw [once.others other fun equal => fresh (equal ▸ inside)]
          exact same
      · intro other absent
        rw [List.mem_cons, not_or] at absent
        rw [later.others other absent.2, once.others other absent.1]

end Entries

/-- What the served document has in common with the upstream one. -/
structure Served (base source : String) (content : StyleContent Json)
    (names : List String) (document served : Json) : Prop where
  object : ∃ members, served = .object members
  glyphs : served.get "glyphs" =
    if content.glyphs.isSome then
      some (.string (servedGlyphs base source))
    else
      document.get "glyphs"
  member : ∀ member, member ≠ "glyphs" → member ≠ "sources" →
    served.get member = document.get member
  entry : ∀ name ∈ names, ∀ fields,
    sourceOf document name = some (.object fields) →
      sourceOf served name = some (.object (rewriteSource base source name
        (learnedMaxzoom content name) fields))
  others : ∀ other, other ∉ names →
    sourceOf served other = sourceOf document other

section Whole

variable {base source : String} {content : StyleContent Json}
  {document : Json} {names : List String}

/-- The rewriting does not fail on an object whose learned sources are
objects. -/
theorem rewriteStyle_spec (unique : names.Nodup)
    (object : ∃ members, document = .object members)
    (found : ∀ name ∈ names, ∃ fields,
      sourceOf document name = some (.object fields)) :
    ∃ served,
      rewriteStyle base source content names document = some served ∧
        Served base source content names document served := by
  obtain ⟨members, rfl⟩ := object
  cases glyphs : content.glyphs with
  | none =>
      obtain ⟨served, folded, all⟩ :
          ∃ served, names.foldlM (rewriteEntry base source content)
              (.object members) = some served ∧
            RetargetedAll base source content names (.object members)
              served :=
        foldlM_rewriteEntry unique ⟨members, rfl⟩ found
      refine ⟨served, ?_, all.object, ?_, ?_, all.entry, all.others⟩
      · rw [rewriteStyle, glyphs]
        exact folded
      · rw [glyphs]
        exact all.member "glyphs" (by decide)
      · exact fun member _ different => all.member member different
  | some template =>
      have turned : ∀ name, name ≠ "glyphs" →
          Json.get (.object (Json.insertMember members "glyphs"
            (.string (servedGlyphs base source)))) name =
              Json.get (.object members) name := by
        intro name different
        rw [Json.get_insertMember, if_neg different]
      have same : ∀ name, sourceOf (.object (Json.insertMember members
          "glyphs" (.string (servedGlyphs base source)))) name =
            sourceOf (.object members) name := by
        intro name
        rw [sourceOf, turned "sources" (by decide), sourceOf]
      obtain ⟨served, folded, all⟩ :
          ∃ served, names.foldlM (rewriteEntry base source content)
              (.object (Json.insertMember members "glyphs"
                (.string (servedGlyphs base source)))) = some served ∧
            RetargetedAll base source content names
              (.object (Json.insertMember members "glyphs"
                (.string (servedGlyphs base source)))) served := by
        apply foldlM_rewriteEntry unique ⟨_, rfl⟩
        intro name member
        rw [same]
        exact found name member
      refine ⟨served, ?_, all.object, ?_, ?_, ?_, ?_⟩
      · rw [rewriteStyle, glyphs]
        exact folded
      · rw [glyphs, all.member "glyphs" (by decide), Json.get_insertMember,
          if_pos rfl]
        rfl
      · intro member apart different
        rw [all.member member different, turned member apart]
      · intro name member fields entry
        apply all.entry name member fields
        rw [same]
        exact entry
      · intro other absent
        rw [all.others other absent, same]

end Whole

/-! ## The sources of a learned style -/

section Learned

variable {allowed : String → Bool} {tilejson : String → Option Json}

theorem firstText_of_tileTemplates {value : Option Json}
    {tiles : List String} (read : (tileTemplates value).join = some tiles) :
    firstText value = tiles.head? := by
  cases value with
  | none => cases read
  | some value =>
      cases array : value.asArray with
      | none => simp [tileTemplates, array] at read
      | some values =>
          simp only [tileTemplates, array] at read
          split at read
          · contradiction
          · have texts : values.mapM Json.asString = some tiles := by
              cases mapped : values.mapM Json.asString with
              | none => simp [mapped] at read
              | some found =>
                  rw [mapped] at read
                  exact read
            simp only [firstText, Option.bind_some, array]
            cases values with
            | nil =>
                cases texts
                rfl
            | cons first rest =>
                rw [List.mapM_cons] at texts
                obtain ⟨text, head, later⟩ := Option.bind_eq_some_iff.mp texts
                obtain ⟨others, _, same⟩ := Option.bind_eq_some_iff.mp later
                cases same
                exact head

theorem firstText_of_learnSource {source : Json} {tiles : List String}
    {zoom : Option Nat}
    (learned : learnSource allowed tilejson source =
      some (some (tiles, zoom))) :
    (if (source.get "tiles").isSome then
      firstText (source.get "tiles")
    else
      (((source.get "url").bind Json.asString).bind tilejson).bind
        fun answer => firstText (answer.get "tiles")) = tiles.head? := by
  simp only [learnSource, Option.bind_eq_some_iff] at learned
  obtain ⟨inline, _, ⟨templates, other⟩, read, learned⟩ := learned
  split at learned
  · split at learned
    · contradiction
    · cases learned
  · next nonempty =>
    split at learned
    · contradiction
    · cases learned
      simp only [sourceTemplates] at read
      split at read
      · next own =>
        rw [if_pos own]
        obtain ⟨found, joined, same⟩ := Option.map_eq_some_iff.mp read
        cases same
        exact firstText_of_tileTemplates joined
      · next remote =>
        rw [if_neg remote]
        split at read
        · next url named =>
          split at read
          · obtain ⟨answer, given, read⟩ := Option.bind_eq_some_iff.mp read
            obtain ⟨found, joined, read⟩ := Option.bind_eq_some_iff.mp read
            obtain ⟨_, _, same⟩ := Option.map_eq_some_iff.mp read
            cases same
            rw [named, Option.bind_some, given, Option.bind_some]
            exact firstText_of_tileTemplates joined
          · contradiction
        · cases read
          exact absurd rfl nonempty

theorem sourceTiles_sublist {members : Json.Members} {names : List String}
    {learned : LearnedSources}
    (kept : learnSources allowed tilejson members names = some learned) :
    (learned.sourceTiles.map Prod.fst).Sublist names := by
  induction names generalizing learned with
  | nil =>
      cases kept
      exact List.Sublist.refl _
  | cons name rest induction =>
      simp only [learnSources] at kept
      split at kept
      · obtain ⟨found, _, kept⟩ := Option.bind_eq_some_iff.mp kept
        obtain ⟨others, later, rfl⟩ := Option.map_eq_some_iff.mp kept
        have before := induction later
        cases found with
        | none => exact before.cons name
        | some tiles => exact before.cons_cons name
      · contradiction

variable {document : Json} {content : StyleContent Json}
  {layers : List Json} {members : Json.Members} {learned : LearnedSources}
  (accepted : Accepted allowed tilejson document content layers members
    learned)

include accepted

theorem sourceOf_accepted (name : String) :
    sourceOf document name = Json.member members name := by
  obtain ⟨sources, listed, read⟩ :=
    Option.bind_eq_some_iff.mp accepted.readMembers
  rw [sourceOf, listed, Option.bind_some, Json.get, read, Option.bind_some]

theorem nodup_sourceTiles : (content.sourceTiles.map Prod.fst).Nodup := by
  rw [accepted.tiles]
  exact (sourceTiles_sublist accepted.sources).nodup
    (Json.nodup_names members)

theorem object_accepted : ∃ fields, document = .object fields := by
  obtain ⟨sources, listed, _⟩ :=
    Option.bind_eq_some_iff.mp accepted.readMembers
  exact Json.object_of_get listed

/-- The source object of a learned source. -/
theorem object_of_sourceTiles {name : String}
    (named : name ∈ content.sourceTiles.map Prod.fst) :
    ∃ fields, sourceOf document name = some (.object fields) := by
  obtain ⟨⟨_, tiles⟩, stored, rfl⟩ := List.mem_map.mp named
  rw [accepted.tiles] at stored
  obtain ⟨known, zoom, read⟩ :=
    ((learns_learnSources accepted.sources).tiles _ _).mp stored
  obtain ⟨entry, found⟩ := Json.member_of_mem_names known
  have declares := (learnSource_tiles read).1
  rw [found, Option.getD_some, declaresTiles, Bool.or_eq_true] at declares
  have member : ∃ name value, entry.get name = some value := by
    cases declares with
    | inl tiles => exact ⟨_, Option.isSome_iff_exists.mp tiles⟩
    | inr url => exact ⟨_, Option.isSome_iff_exists.mp url⟩
  obtain ⟨name, value, present⟩ := member
  obtain ⟨fields, rfl⟩ := Json.object_of_get present
  exact ⟨fields, by rw [sourceOf_accepted accepted, found]⟩

/-- The learned templates begin with the one which the document and its
TileJSON answers name, and a source which is not learned names none. -/
theorem firstTemplate_accepted (name : String) :
    firstTemplate tilejson document name =
      (content.sourceTiles.find? fun entry => entry.1 == name).bind
        fun entry => entry.2.head? := by
  have learns := learns_learnSources accepted.sources
  rw [firstTemplate, sourceOf_accepted accepted]
  cases found : content.sourceTiles.find? fun entry => entry.1 == name with
  | some entry =>
      obtain ⟨named, tiles⟩ := entry
      have stored := List.mem_of_find?_eq_some found
      have same : named = name := by
        simpa using List.find?_some found
      cases same
      rw [accepted.tiles] at stored
      obtain ⟨known, zoom, read⟩ := (learns.tiles _ _).mp stored
      obtain ⟨source, member⟩ := Json.member_of_mem_names known
      rw [member, Option.getD_some] at read
      rw [member, Option.bind_some, Option.bind_some]
      exact firstText_of_learnSource read
  | none =>
      cases member : Json.member members name with
      | none => rfl
      | some source =>
          have known : name ∈ Json.names members :=
            List.mem_map.mpr ⟨_, Json.member_eq_some.mp member, rfl⟩
          obtain ⟨kept, read⟩ := learns.source name known
          rw [member, Option.getD_some] at read
          cases kept with
          | some tiles =>
              have stored : (name, tiles.1) ∈ content.sourceTiles := by
                rw [accepted.tiles, learns.tiles]
                refine ⟨known, tiles.2, ?_⟩
                rw [member, Option.getD_some]
                exact read
              have absent := List.find?_eq_none.mp found _ stored
              simp at absent
          | none =>
              have undeclared := learnSource_none read
              simp only [declaresTiles, Bool.or_eq_false_iff,
                Option.isSome_eq_false_iff, Option.isNone_iff_eq_none]
                at undeclared
              rw [Option.bind_some, undeclared.1, undeclared.2]
              rfl

end Learned

/-! ## Encoded names -/

theorem isAlphanum_lt {char : Char} (plain : char.isAlphanum = true) :
    char.toNat < 128 := by
  have upto : ∀ upper : Char, upper.toNat < 128 → char.val ≤ upper.val →
      char.toNat < 128 := by
    intro upper small most
    exact lt_of_le_of_lt (UInt32.le_iff_toNat_le.mp most) small
  have second : ∀ {lower upper : Char}, (decide (char.val ≥ lower.val) &&
      decide (char.val ≤ upper.val)) = true → char.val ≤ upper.val := by
    intro lower upper within
    exact of_decide_eq_true (Bool.and_eq_true_iff.mp within).2
  cases Bool.or_eq_true_iff.mp plain with
  | inl letter =>
      cases Bool.or_eq_true_iff.mp letter with
      | inl capital =>
          have bounds : char.val ≥ 'A'.val ∧ char.val ≤ 'Z'.val :=
            of_decide_eq_true capital
          exact upto 'Z' (by decide) bounds.2
      | inr small => exact upto 'z' (by decide) (@second 'a' 'z' small)
  | inr digit => exact upto '9' (by decide) (@second '0' '9' digit)

/-- The encoding of a name escapes what is no letter and no digit. -/
theorem toList_encodeFontstack (name : String) :
    (encodeFontstack name).toList =
      Url.encodeExcept Char.isAlphanum name.toList := by
  rw [encodeFontstack, String.toList_ofList, Url.toList_toUTF8,
    List.flatMap_assoc, Url.encodeExcept]
  apply List.flatMap_congr
  intro char _
  have bytes := Url.map_toNat_utf8EncodeChar char
  -- The bytes of a character beyond ASCII are no letters or digits.
  have spelled : ∀ values : List UInt8,
      (∀ byte ∈ values, ¬ (byte.toNat < 128 ∧
        (Char.ofNat byte.toNat).isAlphanum = true)) →
      (values.flatMap fun byte =>
        if byte.toNat < 128 ∧
            (Char.ofNat byte.toNat).isAlphanum = true then
          [Char.ofNat byte.toNat]
        else
          ['%', Url.upperHex (byte.toNat / 16),
            Url.upperHex (byte.toNat % 16)]) =
        Url.escapeBytes (values.map UInt8.toNat) := by
    intro values escaped
    rw [Url.escapeBytes, List.flatMap_map]
    apply List.flatMap_congr
    intro byte member
    rw [if_neg (escaped byte member), Url.escapeByte]
  split
  · next plain =>
    have small := isAlphanum_lt plain
    have single : String.utf8EncodeChar char = [UInt8.ofNat char.toNat] := by
      have point : char.val.toNat = char.toNat := rfl
      simp only [String.utf8EncodeChar, point]
      rw [if_pos (by omega)]
    have value : (UInt8.ofNat char.toNat).toNat = char.toNat := by
      rw [UInt8.toNat_ofNat']
      omega
    rw [single, List.flatMap_cons, List.flatMap_nil, List.append_nil, value,
      Char.ofNat_toNat, if_pos ⟨small, plain⟩]
  · next other =>
    rw [← bytes]
    apply spelled
    intro byte member inside
    have stored : byte.toNat ∈ Url.utf8Bytes char.toNat := by
      rw [← bytes]
      exact List.mem_map_of_mem member
    have one : char.toNat ≤ 0x7f := by
      by_contra beyond
      have high : ∀ value ∈ Url.utf8Bytes char.toNat, 128 ≤ value := by
        intro value member
        simp only [Url.utf8Bytes, if_neg beyond] at member
        split at member
        · simp only [List.mem_cons, List.not_mem_nil, or_false] at member
          omega
        · split at member
          · simp only [List.mem_cons, List.not_mem_nil, or_false] at member
            omega
          · simp only [List.mem_cons, List.not_mem_nil, or_false] at member
            omega
      have := high _ stored
      omega
    rw [Url.utf8Bytes, if_pos one, List.mem_singleton] at stored
    rw [stored, Char.ofNat_toNat] at inside
    exact other inside.2

theorem decode_encodeFontstack (name : String) :
    Url.decodeURIComponent (encodeFontstack name).toList =
      some name.toList := by
  rw [toList_encodeFontstack]
  exact Url.decode_encodeExcept (by decide) name.toList

theorem mem_encodeFontstack {name : String} {char : Char}
    (member : char ∈ (encodeFontstack name).toList) :
    char = '%' ∨ char.isAlphanum = true := by
  rw [toList_encodeFontstack] at member
  cases Url.mem_encodeExcept member with
  | inl kept => exact .inr kept
  | inr escaped => exact escaped

end ChartLocker.Style
