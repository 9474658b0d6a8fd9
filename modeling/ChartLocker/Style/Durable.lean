import ChartLocker.Style.Learner

/-!
# Which learned styles a restart accepts

`learn_style` and `valid_persisted_style` agree on a learned style up to four
checks which only the second performs: control characters in a font stack,
raster sources without tiles, the length of the validator and the length of
the document when it is encoded again.
-/

namespace ChartLocker.Style

open Library Catalog Config

/-! ## Font stacks -/

/-- A font stack which the learner keeps. -/
def KeptFontstack (layers : List Json) (fontstack : String) : Prop :=
  fontstack ≠ "" ∧ fontstack.utf8ByteSize ≤ maxFontstackBytes ∧
    ∃ layer ∈ layers, textFont layer = some fontstack

theorem keptFontstack_cons {layer : Json} {rest : List Json}
    {fontstack : String} :
    KeptFontstack (layer :: rest) fontstack ↔
      (fontstack ≠ "" ∧ fontstack.utf8ByteSize ≤ maxFontstackBytes ∧
        textFont layer = some fontstack) ∨ KeptFontstack rest fontstack := by
  constructor
  · rintro ⟨nonempty, size, other, member, named⟩
    rcases List.mem_cons.mp member with rfl | later
    · exact .inl ⟨nonempty, size, named⟩
    · exact .inr ⟨nonempty, size, other, later, named⟩
  · rintro (⟨nonempty, size, named⟩ | ⟨nonempty, size, other, later, named⟩)
    · exact ⟨nonempty, size, layer, List.mem_cons_self, named⟩
    · exact ⟨nonempty, size, other, List.mem_cons_of_mem layer later, named⟩

theorem mem_learnFontstacks {layers : List Json} {found learned : List String}
    (kept : learnFontstacks layers found = some learned)
    (fontstack : String) :
    fontstack ∈ learned ↔
      fontstack ∈ found ∨ KeptFontstack layers fontstack := by
  induction layers generalizing found with
  | nil =>
      cases kept
      simp [KeptFontstack]
  | cons layer rest induction =>
      rw [keptFontstack_cons]
      simp only [learnFontstacks] at kept
      split at kept
      · next joined named =>
        split at kept
        · next fits =>
          split at kept
          · contradiction
          · rw [induction kept, List.mem_append, List.mem_singleton]
            constructor
            · rintro ((old | rfl) | later)
              · exact .inl old
              · exact .inr (.inl ⟨fits.1, fits.2.1, named⟩)
              · exact .inr (.inr later)
            · rintro (old | ⟨_, _, same⟩ | later)
              · exact .inl (.inl old)
              · exact .inl (.inr (Option.some.inj (same.symm.trans named)))
              · exact .inr later
        · next unfit =>
          rw [induction kept]
          constructor
          · rintro (old | later)
            · exact .inl old
            · exact .inr (.inr later)
          · rintro (old | ⟨nonempty, size, same⟩ | later)
            · exact .inl old
            · obtain rfl : joined = fontstack :=
                Option.some.inj (named.symm.trans same)
              exact .inl (by_contra fun new => unfit ⟨nonempty, size, new⟩)
            · exact .inr later
      · next unnamed =>
        rw [induction kept]
        constructor
        · rintro (old | later)
          · exact .inl old
          · exact .inr (.inr later)
        · rintro (old | ⟨_, _, same⟩ | later)
          · exact .inl old
          · exact absurd (unnamed.symm.trans same) (by simp)
          · exact .inr later

theorem length_learnFontstacks {layers : List Json}
    {found learned : List String}
    (kept : learnFontstacks layers found = some learned)
    (bounded : found.length ≤ maxFontstacks) :
    learned.length ≤ maxFontstacks := by
  induction layers generalizing found with
  | nil =>
      cases kept
      exact bounded
  | cons layer rest induction =>
      simp only [learnFontstacks] at kept
      split at kept
      · split at kept
        · split at kept
          · contradiction
          · next room =>
            apply induction kept
            simp only [List.length_append, List.length_singleton]
            omega
        · exact induction kept bounded
      · exact induction kept bounded

/-! ## Sources -/

section Sources

variable {allowed : String → Bool} {tilejson : String → Option Json}

theorem optionalMaxzoom_le {value : Option Json} {zoom : Nat}
    (read : optionalMaxzoom value = some (some zoom)) :
    zoom ≤ maxTileZoom := by
  unfold optionalMaxzoom at read
  split at read
  · simp at read
  · split at read
    · split at read
      · contradiction
      · next within =>
        simp only [Option.some.injEq] at read
        omega
    · contradiction

theorem sourceTemplates_maxzoom {source : Json} {tiles : List String}
    {zoom : Nat}
    (read : sourceTemplates allowed tilejson source =
      some (tiles, some zoom)) : zoom ≤ maxTileZoom := by
  unfold sourceTemplates at read
  split at read
  · simp at read
  · split at read
    · split at read
      · simp only [Option.bind_eq_some_iff, Option.map_eq_some_iff] at read
        obtain ⟨answer, _, templates, _, maxzoom, bounded, same⟩ := read
        cases same
        exact optionalMaxzoom_le bounded
      · contradiction
    · simp at read

/-- A source which contributes tiles declares them, and its templates and its
maximum zoom pass the checks of the record. -/
theorem learnSource_tiles {source : Json} {tiles : List String}
    {zoom : Option Nat}
    (learned : learnSource allowed tilejson source =
      some (some (tiles, zoom))) :
    declaresTiles source = true ∧ tiles ≠ [] ∧
      tiles.length ≤ maxTemplatesPerSource ∧
      tiles.all (validTemplate allowed) = true ∧
      ∀ value, zoom = some value → value ≤ maxTileZoom := by
  simp only [learnSource, Option.bind_eq_some_iff] at learned
  obtain ⟨inline, inlineRead, ⟨templates, other⟩, read, learned⟩ := learned
  split at learned
  · split at learned <;> simp at learned
  · next nonempty =>
    split at learned
    · contradiction
    · next usable =>
      cases learned
      simp only [not_or, Bool.not_eq_false] at usable
      refine ⟨?_, nonempty, Nat.not_lt.mp usable.1, usable.2, ?_⟩
      · unfold sourceTemplates at read
        split at read
        · next tiles => simp [declaresTiles, tiles]
        · split at read
          · next url named =>
            have present : (source.get "url").isSome := by
              cases given : source.get "url" with
              | none => simp [given] at named
              | some value => rfl
            simp [declaresTiles, present]
          · cases read
            exact absurd rfl nonempty
      · intro value chosen
        cases inline with
        | some zoom =>
            cases chosen
            exact optionalMaxzoom_le inlineRead
        | none =>
            cases chosen
            exact sourceTemplates_maxzoom read

theorem learnSource_none {source : Json}
    (learned : learnSource allowed tilejson source = some none) :
    declaresTiles source = false := by
  simp only [learnSource, Option.bind_eq_some_iff] at learned
  obtain ⟨inline, _, ⟨templates, other⟩, _, learned⟩ := learned
  split at learned
  · split at learned
    · contradiction
    · next undeclared => exact Bool.eq_false_iff.mpr undeclared
  · split at learned <;> simp at learned

/-- What the learner keeps of the sources with some names. -/
structure Learns (allowed : String → Bool) (tilejson : String → Option Json)
    (members : Json.Members) (names : List String)
    (learned : LearnedSources) : Prop where
  valid : ∀ name ∈ names, validStyleSourceName name = true
  source : ∀ name ∈ names, ∃ found, learnSource allowed tilejson
    ((Json.member members name).getD .null) = some found
  tiles : ∀ name tiles, (name, tiles) ∈ learned.sourceTiles ↔
    name ∈ names ∧ ∃ zoom, learnSource allowed tilejson
      ((Json.member members name).getD .null) = some (some (tiles, zoom))
  rasters : ∀ name, name ∈ learned.rasterSources ↔
    name ∈ names ∧ isRaster ((Json.member members name).getD .null) = true
  maxzoom : ∀ name zoom, (name, zoom) ∈ learned.sourceMaxzoom →
    ∃ tiles, name ∈ names ∧ learnSource allowed tilejson
      ((Json.member members name).getD .null) =
        some (some (tiles, some zoom))
  length : learned.sourceTiles.length ≤ names.length

theorem learns_learnSources {members : Json.Members} {names : List String}
    {learned : LearnedSources}
    (kept : learnSources allowed tilejson members names = some learned) :
    Learns allowed tilejson members names learned := by
  induction names generalizing learned with
  | nil =>
      cases kept
      exact ⟨by simp, by simp, by simp, by simp, by simp, by simp⟩
  | cons name rest induction =>
      simp only [learnSources] at kept
      split at kept
      · next validName =>
        obtain ⟨found, read, kept⟩ := Option.bind_eq_some_iff.mp kept
        obtain ⟨others, later, rfl⟩ := Option.map_eq_some_iff.mp kept
        have learns := induction later
        refine ⟨?_, ?_, ?_, ?_, ?_, ?_⟩
        · exact List.forall_mem_cons.mpr ⟨validName, learns.valid⟩
        · exact List.forall_mem_cons.mpr ⟨⟨found, read⟩, learns.source⟩
        · intro other tiles
          simp only [LearnedSources.add, List.mem_append, List.mem_map,
            Option.mem_toList, learns.tiles, List.mem_cons]
          constructor
          · rintro (⟨entry, rfl, same⟩ | ⟨member, zoom, same⟩)
            · cases same
              exact ⟨.inl rfl, entry.2, read⟩
            · exact ⟨.inr member, zoom, same⟩
          · rintro ⟨rfl | member, zoom, same⟩
            · obtain rfl : found = some (tiles, zoom) :=
                Option.some.inj (read.symm.trans same)
              exact .inl ⟨(tiles, zoom), rfl, rfl⟩
            · exact .inr ⟨member, zoom, same⟩
        · intro other
          simp only [LearnedSources.add]
          split
          · next raster =>
            simp only [List.mem_cons, learns.rasters]
            constructor
            · rintro (rfl | ⟨member, same⟩)
              · exact ⟨.inl rfl, raster⟩
              · exact ⟨.inr member, same⟩
            · rintro ⟨rfl | member, same⟩
              · exact .inl rfl
              · exact .inr ⟨member, same⟩
          · next vector =>
            simp only [List.mem_cons, learns.rasters]
            constructor
            · rintro ⟨member, same⟩
              exact ⟨.inr member, same⟩
            · rintro ⟨rfl | member, same⟩
              · exact absurd same vector
              · exact ⟨member, same⟩
        · intro other zoom member
          simp only [LearnedSources.add, List.mem_append, List.mem_map,
            Option.mem_toList] at member
          rcases member with ⟨value, chosen, same⟩ | member
          · cases same
            obtain ⟨⟨tiles, _⟩, rfl, rfl⟩ := Option.bind_eq_some_iff.mp chosen
            exact ⟨tiles, List.mem_cons_self, read⟩
          · obtain ⟨tiles, earlier, same⟩ := learns.maxzoom other zoom member
            exact ⟨tiles, List.mem_cons_of_mem name earlier, same⟩
        · have bounded := learns.length
          simp only [LearnedSources.add, List.length_append, List.length_map,
            List.length_cons]
          cases found with
          | none =>
              simp only [Option.toList_none, List.length_nil]
              omega
          | some tiles =>
              simp only [Option.toList_some, List.length_singleton]
              omega
      · contradiction

end Sources

/-! ## The two checks -/

/-- What `learn_style` has checked when it accepts a document. -/
structure Accepted (allowed : String → Bool)
    (tilejson : String → Option Json) (document : Json)
    (content : StyleContent Json) (layers : List Json)
    (members : Json.Members) (learned : LearnedSources) : Prop where
  readLayers : (document.get "layers").bind Json.asArray = some layers
  readMembers : (document.get "sources").bind Json.asObject = some members
  layerCount : layers.length ≤ maxStyleLayers
  nonempty : members.rows ≠ []
  sourceCount : members.rows.length ≤ maxStyleSources
  glyphs : content.glyphs = (document.get "glyphs").bind Json.asString
  sprite : content.spriteBase = (document.get "sprite").bind Json.asString
  glyphsValid : content.glyphs.all (validGlyphs allowed) = true
  spriteValid : content.spriteBase.all allowed = true
  fontstacks : learnFontstacks layers [] = some content.fontstacks
  sources : learnSources allowed tilejson members (Json.names members) =
    some learned
  tiles : content.sourceTiles = learned.sourceTiles
  rasters : content.rasterSources = learned.rasterSources
  maxzoom : content.sourceMaxzoom = learned.sourceMaxzoom
  named : content.sourceTiles ≠ []
  document : content.document = document

theorem accepted_of_learnStyle {allowed : String → Bool}
    {tilejson : String → Option Json} {document : Json}
    {content : StyleContent Json}
    (learns : learnStyle allowed document tilejson = some content) :
    ∃ layers members learned,
      Accepted allowed tilejson document content layers members learned := by
  simp only [learnStyle, Option.bind_eq_some_iff] at learns
  obtain ⟨layers, layersRead, members, membersRead, learns⟩ := learns
  split at learns
  · contradiction
  · next sizes =>
    split at learns
    · contradiction
    · next urls =>
      simp only [Option.bind_eq_some_iff] at learns
      obtain ⟨fontstacks, kept, learned, sources, learns⟩ := learns
      split at learns
      · contradiction
      · next named =>
        cases learns
        simp only [not_or, Nat.not_lt, Bool.not_eq_false] at sizes urls
        exact ⟨layers, members, learned,
          { readLayers := Option.bind_eq_some_iff.mpr layersRead
            readMembers := Option.bind_eq_some_iff.mpr membersRead
            layerCount := sizes.1
            nonempty := sizes.2.1
            sourceCount := sizes.2.2
            glyphs := rfl
            sprite := rfl
            glyphsValid := urls.1
            spriteValid := urls.2
            fontstacks := kept
            sources := sources
            tiles := rfl
            rasters := rfl
            maxzoom := rfl
            named := named
            document := rfl }⟩

/-- The checks which only the record has to pass: on the font stacks and the
raster sources of the document, on the validator and on the length of the
document when it is encoded again. -/
structure Durable (documentLength : Json → Nat) (document : Json)
    (validator : Option String) : Prop where
  fontstacks : ∀ layers,
    (document.get "layers").bind Json.asArray = some layers →
      ∀ fontstack, KeptFontstack layers fontstack →
        hasControl fontstack = false
  rasters : ∀ members,
    (document.get "sources").bind Json.asObject = some members →
      ∀ entry ∈ members.rows, isRaster entry.2 = true →
        declaresTiles entry.2 = true
  validator : ∀ text, validator = some text →
    text.utf8ByteSize ≤ maxStyleUrlBytes
  length : documentLength document ≤ maxStyleJsonBytes

section Record

variable {allowed : String → Bool} {tilejson : String → Option Json}
  {document : Json} {content : StyleContent Json} {layers : List Json}
  {members : Json.Members} {learned : LearnedSources}

theorem hasTiles_eq_true {sourceTiles : List (String × List String)}
    {name : String} :
    hasTiles sourceTiles name = true ↔
      ∃ tiles, (name, tiles) ∈ sourceTiles := by
  simp [hasTiles]

theorem validRecordUrls_learned
    (accepted : Accepted allowed tilejson document content layers members
      learned) : validRecordUrls allowed content = true := by
  simp only [validRecordUrls, accepted.document, Bool.and_eq_true,
    decide_eq_true_eq]
  exact ⟨⟨⟨accepted.glyphs.symm, accepted.sprite.symm⟩,
    accepted.glyphsValid⟩, accepted.spriteValid⟩

/-- The names of the document's sources whose tiles were learned are those
which declare tiles. -/
theorem hasTiles_iff_declares
    (accepted : Accepted allowed tilejson document content layers members
      learned) {entry : String × Json} (stored : entry ∈ members.rows) :
    hasTiles content.sourceTiles entry.1 = true ↔
      declaresTiles entry.2 = true := by
  have learns := learns_learnSources accepted.sources
  have value : Json.member members entry.1 = some entry.2 :=
    Json.member_eq_some.mpr stored
  have known : entry.1 ∈ Json.names members :=
    List.mem_map_of_mem stored
  obtain ⟨found, read⟩ := learns.source entry.1 known
  simp only [hasTiles_eq_true, accepted.tiles, learns.tiles, known, true_and]
  simp only [value, Option.getD_some] at read ⊢
  constructor
  · rintro ⟨tiles, zoom, same⟩
    exact (learnSource_tiles same).1
  · intro declares
    cases found with
    | none =>
        exact absurd declares (Bool.eq_false_iff.mp (learnSource_none read))
    | some found => exact ⟨found.1, found.2, read⟩

theorem sourceTiles_checked
    (accepted : Accepted allowed tilejson document content layers members
      learned) :
    ∀ entry ∈ content.sourceTiles, validStyleSourceName entry.1 = true ∧
      (Json.member members entry.1).isSome = true ∧ entry.2 ≠ [] ∧
      entry.2.length ≤ maxTemplatesPerSource ∧
      entry.2.all (validTemplate allowed) = true := by
  rintro ⟨name, tiles⟩ stored
  have learns := learns_learnSources accepted.sources
  rw [accepted.tiles] at stored
  obtain ⟨known, zoom, read⟩ := (learns.tiles name tiles).mp stored
  obtain ⟨value, found⟩ := Json.member_of_mem_names known
  obtain ⟨_, nonempty, length, valid, _⟩ := learnSource_tiles read
  exact ⟨learns.valid name known, by simp [found], nonempty, length, valid⟩

theorem sourceMaxzoom_checked
    (accepted : Accepted allowed tilejson document content layers members
      learned) :
    ∀ entry ∈ content.sourceMaxzoom,
      hasTiles content.sourceTiles entry.1 = true ∧ entry.2 ≤ maxTileZoom := by
  rintro ⟨name, zoom⟩ stored
  have learns := learns_learnSources accepted.sources
  rw [accepted.maxzoom] at stored
  obtain ⟨tiles, known, read⟩ := learns.maxzoom name zoom stored
  refine ⟨hasTiles_eq_true.mpr ⟨tiles, ?_⟩,
    (learnSource_tiles read).2.2.2.2 zoom rfl⟩
  rw [accepted.tiles, learns.tiles]
  exact ⟨known, some zoom, read⟩

theorem sameSet_eq_true {left right : List String} :
    sameSet left right = true ↔ ∀ name, name ∈ left ↔ name ∈ right := by
  simp only [sameSet, Bool.and_eq_true, List.all_eq_true,
    List.contains_iff_mem]
  constructor
  · rintro ⟨forward, backward⟩ name
    exact ⟨forward name, backward name⟩
  · intro same
    exact ⟨fun name => (same name).mp, fun name => (same name).mpr⟩

/-- The set of raster sources is the expected one exactly if each of them has
tiles. -/
theorem rasterSources_checked_iff
    (accepted : Accepted allowed tilejson document content layers members
      learned) :
    sameSet
        ((content.sourceTiles.map Prod.fst).filter fun name =>
          ((Json.member members name).map isRaster).getD false)
        content.rasterSources = true ↔
      ∀ entry ∈ members.rows, isRaster entry.2 = true →
        declaresTiles entry.2 = true := by
  have learns := learns_learnSources accepted.sources
  have expected : ∀ entry ∈ members.rows,
      (entry.1 ∈ (content.sourceTiles.map Prod.fst).filter fun name =>
        ((Json.member members name).map isRaster).getD false) ↔
      declaresTiles entry.2 = true ∧ isRaster entry.2 = true := by
    intro entry stored
    have value : Json.member members entry.1 = some entry.2 :=
      Json.member_eq_some.mpr stored
    rw [← hasTiles_iff_declares accepted stored, hasTiles_eq_true]
    simp [value]
  have kept : ∀ entry ∈ members.rows,
      entry.1 ∈ content.rasterSources ↔ isRaster entry.2 = true := by
    intro entry stored
    have value : Json.member members entry.1 = some entry.2 :=
      Json.member_eq_some.mpr stored
    have known : entry.1 ∈ Json.names members := List.mem_map_of_mem stored
    simp [accepted.rasters, learns.rasters, value, known]
  rw [sameSet_eq_true]
  constructor
  · intro same entry stored raster
    have member := (same entry.1).mpr ((kept entry stored).mpr raster)
    exact ((expected entry stored).mp member).1
  · intro declared name
    by_cases known : name ∈ Json.names members
    · obtain ⟨entry, stored, rfl⟩ := List.mem_map.mp known
      rw [expected entry stored, kept entry stored]
      exact ⟨And.right, fun raster => ⟨declared entry stored raster, raster⟩⟩
    · -- Neither set names a source which the document does not have.
      have unknown : Json.member members name = none := by
        cases found : Json.member members name with
        | none => rfl
        | some value =>
            have stored := Json.member_eq_some.mp found
            exact absurd (List.mem_map_of_mem stored) known
      simp [unknown, accepted.rasters, learns.rasters, known]

theorem validRecordSources_learned_iff
    (accepted : Accepted allowed tilejson document content layers members
      learned) :
    validRecordSources allowed members content = true ↔
      ∀ entry ∈ members.rows, isRaster entry.2 = true →
        declaresTiles entry.2 = true := by
  have tiles : (content.sourceTiles.all fun entry =>
      validStyleSourceName entry.1 &&
        (Json.member members entry.1).isSome &&
        decide (entry.2 ≠ [] ∧ entry.2.length ≤ maxTemplatesPerSource) &&
        entry.2.all (validTemplate allowed)) = true := by
    rw [List.all_eq_true]
    intro entry stored
    obtain ⟨name, known, nonempty, length, valid⟩ :=
      sourceTiles_checked accepted entry stored
    simp only [name, known, valid, nonempty, length, ne_eq, not_false_eq_true,
      and_self, decide_true, Bool.and_self]
  have declared : (members.rows.all fun entry =>
      !declaresTiles entry.2 || hasTiles content.sourceTiles entry.1) =
        true := by
    rw [List.all_eq_true]
    intro entry stored
    cases declares : declaresTiles entry.2 with
    | false => rfl
    | true => simp [(hasTiles_iff_declares accepted stored).mpr declares]
  have maxzoom : (content.sourceMaxzoom.all fun entry =>
      hasTiles content.sourceTiles entry.1 &&
        decide (entry.2 ≤ maxTileZoom)) = true := by
    rw [List.all_eq_true]
    intro entry stored
    have checked := sourceMaxzoom_checked accepted entry stored
    simp [checked.1, checked.2]
  rw [← rasterSources_checked_iff accepted]
  simp only [validRecordSources, tiles, declared, maxzoom, Bool.true_and,
    Bool.and_true]

theorem validRecordSizes_learned_iff
    (accepted : Accepted allowed tilejson document content layers members
      learned) {documentLength : Json → Nat}
    {persisted : PersistedStyleState Json}
    (same : persisted.content = content)
    (version : persisted.version = persistedStyleVersion)
    (even : persisted.generation % 2 = 0) (past : 0 ≤ persisted.fetchedAt) :
    validRecordSizes documentLength layers members persisted = true ↔
      (∀ fontstack, KeptFontstack layers fontstack →
        hasControl fontstack = false) ∧
      (∀ text, persisted.upstreamValidator = some text →
        text.utf8ByteSize ≤ maxStyleUrlBytes) ∧
      documentLength document ≤ maxStyleJsonBytes := by
  have tileCount : content.sourceTiles.length ≤ maxStyleSources := by
    have bounded := (learns_learnSources accepted.sources).length
    have names : (Json.names members).length = members.rows.length :=
      List.length_map _
    have sources := accepted.sourceCount
    rw [accepted.tiles]
    omega
  have fontCount : content.fontstacks.length ≤ maxFontstacks :=
    length_learnFontstacks accepted.fontstacks (Nat.zero_le _)
  have fonts : ∀ fontstack, fontstack ∈ content.fontstacks ↔
      KeptFontstack layers fontstack := by
    intro fontstack
    rw [mem_learnFontstacks accepted.fontstacks]
    simp
  have sizes : persisted.version = persistedStyleVersion ∧
      persisted.generation % 2 = 0 ∧ 0 ≤ persisted.fetchedAt ∧
      layers.length ≤ maxStyleLayers ∧ members.rows ≠ [] ∧
      members.rows.length ≤ maxStyleSources ∧ content.sourceTiles ≠ [] ∧
      content.sourceTiles.length ≤ maxStyleSources ∧
      content.fontstacks.length ≤ maxFontstacks :=
    ⟨version, even, past, accepted.layerCount, accepted.nonempty,
      accepted.sourceCount, accepted.named, tileCount, fontCount⟩
  simp only [validRecordSizes, same, sizes, ne_eq, not_false_eq_true,
    true_and, Bool.and_eq_true, List.all_eq_true, decide_eq_true_eq, fonts,
    accepted.document, and_assoc, bne_iff_ne, Bool.not_eq_true']
  refine and_congr ?_ (and_congr ?_ Iff.rfl)
  · constructor
    · intro checked fontstack kept
      exact (checked fontstack kept).2.2
    · intro clean fontstack kept
      exact ⟨kept.1, kept.2.1, clean fontstack kept⟩
  · cases persisted.upstreamValidator with
    | none => simp
    | some text => simp

end Record

/-- A record of a learned style is valid for the definition under which it
was learned exactly if it passes the checks which only the record has to
pass. -/
theorem validPersistedStyle_iff
    {styleUrlAllowed : String → List String → Bool → Bool}
    {documentLength : Json → Nat} {allowHttp : Bool} {source : ChartSource}
    {styleUrl : String} {hosts : List String}
    (style : source.upstream = .style styleUrl hosts)
    {document : Json} {tilejson : String → Option Json}
    {persisted : PersistedStyleState Json}
    (learns : learnStyle (fun url => styleUrlAllowed url hosts allowHttp)
      document tilejson = some persisted.content)
    (version : persisted.version = persistedStyleVersion)
    (even : persisted.generation % 2 = 0) (past : 0 ≤ persisted.fetchedAt) :
    validPersistedStyle documentLength styleUrlAllowed persisted source
        allowHttp = true ↔
      Durable documentLength document persisted.upstreamValidator := by
  obtain ⟨layers, members, learned, accepted⟩ := accepted_of_learnStyle learns
  simp only [validPersistedStyle, style, accepted.document,
    accepted.readLayers, accepted.readMembers, Bool.and_eq_true,
    validRecordUrls_learned accepted, and_true,
    validRecordSources_learned_iff accepted,
    validRecordSizes_learned_iff accepted rfl version even past]
  constructor
  · rintro ⟨⟨fontstacks, validator, length⟩, rasters⟩
    refine ⟨?_, ?_, validator, length⟩
    · intro others same
      obtain rfl : layers = others :=
        Option.some.inj (accepted.readLayers.symm.trans same)
      exact fontstacks
    · intro others same
      obtain rfl : members = others :=
        Option.some.inj (accepted.readMembers.symm.trans same)
      exact rasters
  · rintro ⟨fontstacks, rasters, validator, length⟩
    exact ⟨⟨fontstacks layers accepted.readLayers, validator, length⟩,
      rasters members accepted.readMembers⟩

end ChartLocker.Style
