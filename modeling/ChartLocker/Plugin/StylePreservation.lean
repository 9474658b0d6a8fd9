import ChartLocker.Plugin.Retention
import ChartLocker.Plugin.StyleRequests

/-!
# The served document means what the upstream document means

A style document is a table from resources to URLs.  The document which the
plugin serves names other URLs, but through the proxy and the routes they lead
to the ones of the upstream document; only resources which a route does not
offer and names which the proxy refuses have no answer.  Nothing else in the
document changes.
-/

namespace ChartLocker.Plugin.StyleProxy

open Library Text Url Catalog Config Style Warm ContainerTargets

/-! ## What a route fetches -/

section Routes

variable {allowed : String → Bool} {service : Service Json}
  {source : String} {learned : StyleState Json}
  (found : service.app.styleState.lookup source = some learned)

include found

theorem assetUrl_tile {name template : String} {others : List String}
    (entry : learned.content.sourceTiles.find? (fun entry =>
      entry.1 == name) = some (name, template :: others)) (z x y : Nat) :
    assetUrl allowed service source (.tile name z x y) =
      if admitted learned.content (.tile name z x y) = true then
        (some (expandTileUrl template z x y)).filter allowed
      else
        none := by
  have known : (learned.content.sourceTiles.any fun entry =>
      entry.1 == name && !entry.2.isEmpty) = true := by
    apply List.any_eq_true.mpr
    exact ⟨_, List.mem_of_find?_eq_some entry, by simp⟩
  have maxzoom : ((learned.content.sourceMaxzoom.find? fun entry =>
      entry.1 == name).elim 24 Prod.snd) =
        (learnedMaxzoom learned.content name).getD 24 := by
    rw [learnedMaxzoom]
    cases learned.content.sourceMaxzoom.find? fun entry =>
      entry.1 == name with
    | none => rfl
    | some zoom => rfl
  have upstream : AssetPath.upstream learned.content (.tile name z x y) =
      some (expandTileUrl template z x y) := by
    simp only [AssetPath.upstream, entry, Option.bind_some, List.head?_cons,
      Option.map_some]
  simp only [assetUrl, AssetPath.key, AssetPath.request, Option.bind_some,
    AssetRequest.resolve, found, known, maxzoom, true_and, upstream,
    admitted, decide_eq_true_eq]
  split
  · rw [Option.map_some, Option.bind_some]
  · rw [Option.map_none, Option.bind_none]

theorem assetUrl_glyphs (fontstack : String) (start : Nat) :
    assetUrl allowed service source
        (.glyphs fontstack (rangeName start ++ ".pbf")) =
      if admitted learned.content (.glyphs fontstack start) = true then
        (learned.content.glyphs.map fun template =>
          expandGlyphUrl template fontstack
            (rangeName start ++ ".pbf")).filter allowed
      else
        none := by
  simp only [assetUrl, AssetPath.key, AssetPath.request, AssetPath.upstream,
    glyphRange_rangeName, admitted, decide_eq_true_eq]
  by_cases aligned : start % 256 = 0 ∧ start ≤ 0x10ff00
  · simp only [if_pos aligned, Option.map_some, Option.bind_some,
      AssetRequest.resolve, found]
    by_cases known : fontstack ∈ learned.content.fontstacks
    · have accepts : fontstack ∈ learned.content.fontstacks ∧
          start % 256 = 0 ∧ start ≤ 0x10ff00 := ⟨known, aligned⟩
      rw [if_pos accepts, if_pos accepts, Option.map_some, Option.bind_some]
      cases learned.content.glyphs with
      | none => rfl
      | some template => rfl
    · rw [if_neg fun both => known both.1, if_neg fun both => known both.1,
        Option.map_none, Option.bind_none]
  · rw [if_neg aligned, if_neg fun both => aligned both.2]
    rfl

theorem assetUrl_sprite {entry : Nat × String × StyleAssetKind}
    (known : spriteVariants.find? (fun other => other.1 == entry.1) =
      some entry) :
    assetUrl allowed service source (.sprite entry.1) =
      (learned.content.spriteBase.map fun base => base ++ entry.2.1).filter
        allowed := by
  simp only [assetUrl, AssetPath.key, AssetPath.request, Option.bind_some,
    AssetRequest.resolve, found, known, Option.map_some, AssetPath.upstream]
  cases learned.content.spriteBase with
  | none => rfl
  | some base => rfl

end Routes

/-! ## The members of a rewritten source -/

section Fields

variable {base source name field : String} {zoom : Option Nat}
  {members : List (String × Json)}

theorem get_rewriteSource :
    Json.get (.object (rewriteSource base source name zoom members)) field =
      if field = "tiles" then
        some (.array [.string (servedTiles base source name)])
      else if field = "url" then
        none
      else if field = "maxzoom" then
        (Json.get (.object members) "maxzoom").or
          (zoom.map fun value => .number (.unsigned value))
      else
        Json.get (.object members) field := by
  have tiled : ∀ field, Json.get (.object (Json.insertMember
      (Json.removeMember members "url") "tiles"
        (.array [.string (servedTiles base source name)]))) field =
      if field = "tiles" then
        some (.array [.string (servedTiles base source name)])
      else if field = "url" then
        none
      else
        Json.get (.object members) field := by
    intro field
    rw [Json.get_insertMember, Json.get_removeMember]
  have ownZoom : Json.get (.object (Json.insertMember
      (Json.removeMember members "url") "tiles"
        (.array [.string (servedTiles base source name)]))) "maxzoom" =
      Json.get (.object members) "maxzoom" := by
    rw [tiled, if_neg (by decide), if_neg (by decide)]
  have kept : ∀ other : Option Json, field = "maxzoom" →
      (Json.get (.object members) "maxzoom").isSome = true →
        Json.get (.object members) field =
          (Json.get (.object members) "maxzoom").or other := by
    intro other same present
    obtain ⟨value, given⟩ := Option.isSome_iff_exists.mp present
    rw [same, given, Option.some_or]
  simp only [rewriteSource, ownZoom]
  cases zoom with
  | none =>
      rw [tiled]
      split
      · rfl
      · split
        · rfl
        · split
          · next same => rw [same, Option.map_none, Option.or_none]
          · rfl
  | some value =>
      dsimp only
      split
      · next present =>
        rw [tiled]
        split
        · rfl
        · split
          · rfl
          · split
            · next same => exact kept _ same present
            · rfl
      · next absent =>
        have missing : Json.get (.object members) "maxzoom" = none := by
          simpa using absent
        rw [Json.get_insertMember]
        split
        · next same =>
          subst same
          rw [if_neg (by decide), if_neg (by decide), missing,
            Option.none_or, Option.map_some]
        · exact tiled field

end Fields

/-! ## The whole document -/

/-- What the served document keeps of the upstream one, and what it says
about the zoom of a learned source. -/
structure KeptMembers (content : StyleContent Json)
    (document served : Json) : Prop where
  member : ∀ member, member ≠ "glyphs" → member ≠ "sprite" →
    member ≠ "sources" → served.get member = document.get member
  source : ∀ name, name ∉ content.sourceTiles.map Prod.fst →
    sourceOf served name = sourceOf document name
  field : ∀ name ∈ content.sourceTiles.map Prod.fst, ∀ field,
    field ≠ "tiles" → field ≠ "url" → field ≠ "maxzoom" →
      (sourceOf served name).bind (fun source => source.get field) =
        (sourceOf document name).bind fun source => source.get field
  maxzoom : ∀ name ∈ content.sourceTiles.map Prod.fst,
    (sourceOf served name).bind (fun source => source.get "maxzoom") =
      ((sourceOf document name).bind fun source =>
        source.get "maxzoom").or ((learnedMaxzoom content name).map
          fun zoom => .number (.unsigned zoom))

section Whole

variable {decode : List Char → Option (List Char)}
  {allowed : String → Bool} {tilejson : String → Option Json}
  {service : Service Json} {source : String} {document : Json}
  {learned : StyleState Json} {page : Origin} {mount : Mount}
  {rawUrl target : List Char} {names : List String} {layers : List Json}
  {members : Json.Members} {sources : LearnedSources}

/-- The document which leaves the plugin, against the upstream one. -/
structure Delivered (page : Origin) (mount : Mount) (target : List Char)
    (source : String) (content : StyleContent Json)
    (document served : Json) : Prop where
  glyphs : served.get "glyphs" =
    if content.glyphs.isSome then
      some (.string (servedGlyphs mount.text source))
    else
      document.get "glyphs"
  sprite : (served.get "sprite").bind Json.asString =
    content.spriteBase.map fun _ => servedSprite page mount target
  member : ∀ member, member ≠ "glyphs" → member ≠ "sprite" →
    member ≠ "sources" → served.get member = document.get member
  entry : ∀ name ∈ content.sourceTiles.map Prod.fst, ∀ fields,
    sourceOf document name = some (.object fields) →
      sourceOf served name = some (.object (rewriteSource mount.text source
        name (learnedMaxzoom content name) fields))
  others : ∀ name, name ∉ content.sourceTiles.map Prod.fst →
    sourceOf served name = sourceOf document name

theorem delivered_of_accepted {content : StyleContent Json}
    (accepted : Accepted allowed tilejson document content layers members
      sources)
    (listed : names.Perm (content.sourceTiles.map Prod.fst)) :
    ∃ rewritten served,
      rewriteStyle mount.text source content names document =
        some rewritten ∧
      rewriteSprite page mount target rewritten = some served ∧
      Delivered page mount target source content document served := by
  obtain ⟨rewritten, done, shape⟩ :
      ∃ rewritten, rewriteStyle mount.text source content names document =
          some rewritten ∧
        Served mount.text source content names document rewritten := by
    apply rewriteStyle_spec
    · exact listed.nodup_iff.mpr (nodup_sourceTiles accepted)
    · exact object_accepted accepted
    · intro name member
      exact object_of_sourceTiles accepted (listed.mem_iff.mp member)
  have sprite : (rewritten.get "sprite").bind Json.asString =
      content.spriteBase := by
    rw [shape.member "sprite" (by decide) (by decide), accepted.sprite]
  have entry : ∀ name ∈ content.sourceTiles.map Prod.fst, ∀ fields,
      sourceOf document name = some (.object fields) →
        sourceOf rewritten name = some (.object (rewriteSource mount.text
          source name (learnedMaxzoom content name) fields)) :=
    fun name member => shape.entry name (listed.mem_iff.mpr member)
  have others : ∀ name, name ∉ content.sourceTiles.map Prod.fst →
      sourceOf rewritten name = sourceOf document name :=
    fun name absent => shape.others name fun member =>
      absent (listed.mem_iff.mp member)
  obtain ⟨fields, rfl⟩ := shape.object
  cases base : content.spriteBase with
  | none =>
      refine ⟨_, .object fields, done, ?_, shape.glyphs, ?_, ?_, entry,
        others⟩
      · rw [rewriteSprite, sprite, base]
        rfl
      · rw [sprite, base]
        rfl
      · exact fun member apart _ different =>
          shape.member member apart different
  | some upstream =>
      have turned : ∀ member, member ≠ "sprite" →
          Json.get (.object (Json.insertMember fields "sprite"
            (.string (servedSprite page mount target)))) member =
              Json.get (.object fields) member := by
        intro member different
        rw [Json.get_insertMember, if_neg different]
      have same : ∀ name, sourceOf (.object (Json.insertMember fields
          "sprite" (.string (servedSprite page mount target)))) name =
            sourceOf (.object fields) name := by
        intro name
        rw [sourceOf, turned "sources" (by decide), sourceOf]
      refine ⟨_, .object (Json.insertMember fields "sprite"
        (.string (servedSprite page mount target))), done, ?_, ?_, ?_, ?_,
        ?_, ?_⟩
      · rw [rewriteSprite, sprite, base]
        rfl
      · rw [turned "glyphs" (by decide)]
        exact shape.glyphs
      · rw [Json.get_insertMember, if_pos rfl, base]
        rfl
      · intro member apart kept different
        rw [turned member kept]
        exact shape.member member apart different
      · intro name member others given
        rw [same]
        exact entry name member others given
      · intro name absent
        rw [same]
        exact others name absent

theorem keptMembers_of_delivered {content : StyleContent Json}
    (accepted : Accepted allowed tilejson document content layers members
      sources) {served : Json}
    (delivered : Delivered page mount target source content document
      served) : KeptMembers content document served where
  member := delivered.member
  source := delivered.others
  field name member field tiles url zoom := by
    obtain ⟨fields, given⟩ := object_of_sourceTiles accepted member
    rw [delivered.entry name member fields given, given, Option.bind_some,
      Option.bind_some, get_rewriteSource, if_neg tiles, if_neg url,
      if_neg zoom]
  maxzoom name member := by
    obtain ⟨fields, given⟩ := object_of_sourceTiles accepted member
    rw [delivered.entry name member fields given, given, Option.bind_some,
      Option.bind_some, get_rewriteSource, if_neg (by decide),
      if_neg (by decide), if_pos rfl]

/-- The templates of the delivered sources. -/
theorem firstTemplate_delivered {content : StyleContent Json}
    (accepted : Accepted allowed tilejson document content layers members
      sources) {served : Json}
    (delivered : Delivered page mount target source content document served)
    (name : String) :
    firstTemplate tilejson served name =
      (content.sourceTiles.find? fun entry => entry.1 == name).map
        fun _ => servedTiles mount.text source name := by
  cases found : content.sourceTiles.find? fun entry => entry.1 == name with
  | none =>
      have absent : name ∉ content.sourceTiles.map Prod.fst := by
        intro member
        obtain ⟨entry, stored, same⟩ := List.mem_map.mp member
        have different := List.find?_eq_none.mp found entry stored
        exact different (beq_iff_eq.mpr same)
      have unnamed := firstTemplate_accepted accepted name
      rw [found] at unnamed
      rw [firstTemplate, delivered.others name absent]
      exact unnamed
  | some entry =>
      have named : entry.1 = name := by
        simpa using List.find?_some found
      have member : name ∈ content.sourceTiles.map Prod.fst :=
        List.mem_map.mpr ⟨entry, List.mem_of_find?_eq_some found, named⟩
      obtain ⟨fields, given⟩ := object_of_sourceTiles accepted member
      have tiles : Json.get (.object (rewriteSource mount.text source name
          (learnedMaxzoom content name) fields)) "tiles" =
            some (.array [.string (servedTiles mount.text source name)]) := by
        rw [get_rewriteSource, if_pos rfl]
      rw [firstTemplate, delivered.entry name member fields given,
        Option.bind_some, tiles]
      rfl

section Resources

variable {served : Json}
  (accepted : Accepted allowed tilejson document learned.content layers
    members sources)
  (delivered : Delivered page mount target source learned.content document
    served)
  (found : service.app.styleState.lookup source = some learned)
  (decodes : ∀ raw value, decodeURIComponent raw = some value →
    decode raw = some value)

include accepted delivered found

theorem sprite_preserved
    (asked : validatedContainerTarget rawUrl .style = some target)
    (routed : documentSource decode (pathOf target) = some source)
    (variant : Nat) :
    (resourceUrl tilejson served (.sprite variant)).bind
        (proxiedUrl decode page mount allowed service) =
      (resourceUrl tilejson document (.sprite variant)).filter allowed := by
  simp only [resourceUrl, delivered.sprite, ← accepted.sprite]
  cases base : learned.content.spriteBase with
  | none => rfl
  | some upstream =>
      rw [Option.map_some, Option.bind_some, Option.bind_some]
      cases entry : spriteVariants.find? fun entry => entry.1 == variant with
      | none => rfl
      | some chosen =>
          have same : chosen.1 = variant := by
            simpa using List.find?_some entry
          cases same
          rw [Option.map_some, Option.map_some, Option.bind_some,
            proxiedUrl_sprite asked routed
              (List.mem_of_find?_eq_some entry),
            assetUrl_sprite found entry, base, Option.map_some]

include decodes

theorem tile_preserved (id : PathId source) (name : String) (z x y : Nat) :
    (resourceUrl tilejson served (.tile name z x y)).bind
        (proxiedUrl decode page mount allowed service) =
      if forwarded (.tile name z x y) = true ∧
          admitted learned.content (.tile name z x y) = true then
        (resourceUrl tilejson document (.tile name z x y)).filter allowed
      else
        none := by
  simp only [resourceUrl, firstTemplate_delivered accepted delivered,
    firstTemplate_accepted accepted]
  cases entry : learned.content.sourceTiles.find? fun entry =>
    entry.1 == name with
  | none =>
      rw [Option.map_none, Option.map_none, Option.bind_none, Option.bind_none,
        Option.map_none, Option.filter_none, ite_self]
  | some tiles =>
      obtain ⟨named, templates⟩ := tiles
      have same : named = name := by
        simpa using List.find?_some entry
      cases same
      have checked := sourceTiles_checked accepted _
        (List.mem_of_find?_eq_some entry)
      have nonempty : name ≠ "" := by
        have valid := checked.1
        simp only [validStyleSourceName, Bool.and_eq_true, bne_iff_ne]
          at valid
        exact valid.1.1
      obtain ⟨template, others, rfl⟩ :=
        List.exists_cons_of_ne_nil checked.2.2.1
      rw [Option.map_some, Option.map_some, Option.bind_some,
        Option.bind_some, List.head?_cons, Option.map_some,
        proxiedUrl_tile decodes id nonempty]
      by_cases admits :
          admitted learned.content (.tile name z x y) = true
      · have bounds : z ≤ u32Max ∧ x ≤ u32Max ∧ y ≤ u32Max := by
          have within := of_decide_eq_true admits
          have power : 2 ^ z ≤ 2 ^ 24 :=
            Nat.pow_le_pow_right (by decide) within.2.1
          have limit : u32Max = 4294967295 := rfl
          omega
        by_cases sent : forwarded (.tile name z x y) = true
        · rw [if_pos ⟨sent, bounds⟩, if_pos ⟨sent, admits⟩,
            assetUrl_tile found entry, if_pos admits]
        · rw [if_neg fun both => sent both.1, if_neg fun both => sent both.1]
      · have refused : ¬ (forwarded (.tile name z x y) = true ∧
            admitted learned.content (.tile name z x y) = true) :=
          fun both => admits both.2
        rw [if_neg refused]
        split
        · rw [assetUrl_tile found entry, if_neg admits]
        · rfl

theorem glyphs_preserved (id : PathId source) (fontstack : String)
    (start : Nat) :
    (resourceUrl tilejson served (.glyphs fontstack start)).bind
        (proxiedUrl decode page mount allowed service) =
      if forwarded (.glyphs fontstack start) = true ∧
          admitted learned.content (.glyphs fontstack start) = true then
        (resourceUrl tilejson document (.glyphs fontstack start)).filter
          allowed
      else
        none := by
  have upstream := accepted.glyphs
  cases glyphs : learned.content.glyphs with
  | none =>
      have kept := delivered.glyphs
      rw [glyphs] at upstream kept
      simp only [resourceUrl, kept, Option.isSome_none, Bool.false_eq_true,
        if_false, ← upstream, Option.map_none, Option.bind_none,
        Option.filter_none, ite_self]
  | some template =>
      have turned := delivered.glyphs
      rw [glyphs] at upstream turned
      simp only [resourceUrl, turned, Option.isSome_some, if_true,
        Option.bind_some, Json.asString, Option.map_some,
        proxiedUrl_glyphs decodes id, ← upstream]
      by_cases admits :
          admitted learned.content (.glyphs fontstack start) = true
      · have nonempty : fontstack ≠ "" := by
          have within := of_decide_eq_true admits
          have kept := (mem_learnFontstacks accepted.fontstacks
            fontstack).mp within.1
          rcases kept with absent | kept
          · cases absent
          · exact kept.1
        by_cases sent : forwarded (.glyphs fontstack start) = true
        · rw [if_pos ⟨sent, nonempty⟩, if_pos ⟨sent, admits⟩,
            assetUrl_glyphs found, if_pos admits, glyphs, Option.map_some]
        · rw [if_neg fun both => sent both.1, if_neg fun both => sent both.1]
      · have refused : ¬ (forwarded (.glyphs fontstack start) = true ∧
            admitted learned.content (.glyphs fontstack start) = true) :=
          fun both => admits both.2
        rw [if_neg refused]
        split
        · rw [assetUrl_glyphs found, if_neg admits]
        · rfl

end Resources

end Whole

def pluginMount : Mount where
  text := pluginPublicBase
  slash := by decide +kernel
  plain := by decide +kernel

def boatOrigin : Origin where
  text := "http://boat.local:3000"
  absolute := by decide +kernel

end ChartLocker.Plugin.StyleProxy
