import ChartLocker.Catalog.Grid
import ChartLocker.Catalog.Upstream
import ChartLocker.Warm.Promoted

/-!
# Tiles which every check accepts

The enumeration of a warm clamps coordinates and zooms; the fetch and the route
of a style's tiles check them again.  The tiles of the first pass the others.
-/

namespace ChartLocker.Warm

open Library Cache Catalog Config

variable {Document : Type} {env : Environment Document}

section Tile

variable {formula : ℚ → ℚ → Nat → Int × Int} {source sub : ChartSource}
  {bbox : BBox} {zmin zmax : Nat} {tile : Nat × Nat × Nat}

theorem inRange_of_mem_tilesIter
    (member : tile ∈ tilesIter (tileForLngLat formula) source bbox zmin
      zmax) : inRange source tile.1 tile.2.1 tile.2.2 = .ok () := by
  obtain ⟨least, most, effective, column, row⟩ := tilesIter_inGrid member
  have small : tile.1 < 64 := by
    unfold maxEffectiveZoom at effective
    omega
  exact inRange_eq_ok.mpr ⟨least, most, small, column, row⟩

/-- The tasks and the tile route ask whether a URL can be built. -/
theorem expandsUpstream_iff {bboxStr : Nat → Nat → Nat → String}
    {key : TileKey} : expandsUpstream source key = true ↔
      ∃ url, expandUpstream bboxStr source key.z key.x key.y = .ok url := by
  unfold expandsUpstream
  rw [expandUpstream_ok_iff, Bool.and_eq_true, Bool.not_eq_true',
    decide_eq_true_eq, inRange_eq_ok]

theorem subSources_cases {learned : StyleState Document}
    {subs : List ChartSource} (content : subSources source learned = some subs)
    (member : sub ∈ subs) :
    ∃ entry ∈ learned.content.sourceTiles, ∃ template,
      entry.2.head? = some template ∧
        sub = subSource source learned entry.1 template := by
  unfold subSources at content
  split at content
  · contradiction
  · obtain rfl := Option.some.inj content
    obtain ⟨entry, stored, found⟩ := List.mem_filterMap.mp member
    obtain ⟨template, head, rfl⟩ := Option.map_eq_some_iff.mp found
    exact ⟨entry, stored, template, head, rfl⟩

/-- The route finds the template of a tile of a sub-source and no fault with
its zoom and coordinates; it reads and stores it under the key of the warm. -/
theorem resolve_of_mem_tilesIter {service : Service Document}
    {learned : StyleState Document} {name template : String}
    {templates : List String}
    (known : service.app.styleState.lookup source.id = some learned)
    (entry : (name, templates) ∈ learned.content.sourceTiles)
    (head : templates.head? = some template)
    (member : tile ∈ tilesIter (tileForLngLat formula)
      (subSource source learned name template) bbox zmin zmax) :
    ∃ kind, (AssetRequest.vectorTile source.id name tile.1 tile.2.1
        tile.2.2).resolve service =
      some (⟨(subSource source learned name template).id, tile.1, tile.2.1,
        tile.2.2⟩, kind) := by
  obtain ⟨_, most, effective, column, row⟩ := tilesIter_inGrid member
  have listed : (learned.content.sourceTiles.any fun other =>
      other.1 == name && !other.2.isEmpty) = true := by
    apply List.any_eq_true.mpr
    refine ⟨(name, templates), entry, ?_⟩
    cases templates with
    | nil => contradiction
    | cons first rest => simp
  have zoom : tile.1 ≤ (learned.content.sourceMaxzoom.find? fun other =>
      other.1 == name).elim 24 Prod.snd := by
    have most : tile.1 ≤ min (source.vectorMaxzoom.getD source.maxzoom)
        ((learned.content.sourceMaxzoom.find? fun other =>
          other.1 == name).elim (source.vectorMaxzoom.getD source.maxzoom)
            Prod.snd) := most
    have native := most.trans (min_le_right _ _)
    cases found : learned.content.sourceMaxzoom.find? fun other =>
        other.1 == name with
    | none => exact effective
    | some other =>
        rw [found] at native
        exact native
  refine ⟨if name ∈ learned.content.rasterSources then .rasterTile
    else .vectorTile, ?_⟩
  simp only [AssetRequest.resolve, known, Option.bind_some]
  rw [if_pos ⟨listed, zoom, effective, column, row⟩]
  rfl

end Tile

section Run

variable {known : ChartSource → StyleState Document → Prop}
  {sources expanded : List ChartSource} {source : ChartSource}

/-- No style is left after the expansion. -/
theorem isStyle_of_expands (expands : Expands known sources expanded)
    (member : source ∈ expanded) : source.isStyle = false := by
  induction expands with
  | nil => contradiction
  | plain before plain induction =>
      rcases List.mem_append.mp member with earlier | last
      · exact induction earlier
      · rw [List.mem_singleton.mp last]
        exact plain
  | style before style entry content induction =>
      rcases List.mem_append.mp member with earlier | last
      · exact induction earlier
      · obtain ⟨entry, _, template, _, rfl⟩ := subSources_cases content last
        rfl

theorem expansion_of_run {start finish : Service Document}
    {labels : List (Label Document)} {order : Nat} {job : WarmJob}
    (initial : (serviceMachine env).initial start)
    (run : (serviceMachine env).exec start labels = some finish)
    (found : finish.warmJobs order = some job) :
    job.Expansion fun _ (_ : StyleState Document) => True := by
  apply Machine.exec_preserves (motive := fun state : Service Document =>
    ∀ order job, state.warmJobs order = some job →
      job.Expansion fun _ (_ : StyleState Document) => True)
    _ run _ order job found
  · exact fun _ _ _ expansions stepped =>
      expansions_step expansions (fun _ _ _ _ _ _ _ _ _ => trivial) stepped
  · obtain ⟨tables, deferred, bootId, _, _, _, rfl⟩ := initial
    rintro _ _ ⟨⟩

end Run

/-- Whatever the floating-point formula gives: an enumerated tile is in range
for its source, so that a URL is built for it, the route of a learned style
accepts every tile of the sub-sources under the key of the warm, and a job of
any run only enumerates tiles for which a URL is built. -/
theorem enumerated_tiles_are_acceptable
    {formula : ℚ → ℚ → Nat → Int × Int} {bboxStr : Nat → Nat → Nat → String}
    (clamped : env.tileForLngLat = tileForLngLat formula) :
    (∀ source bbox zmin zmax tile,
      tile ∈ tilesIter env.tileForLngLat source bbox zmin zmax →
        inRange source tile.1 tile.2.1 tile.2.2 = .ok () ∧
        (source.isStyle = false → ∃ url, expandUpstream bboxStr source tile.1
          tile.2.1 tile.2.2 = .ok url)) ∧
    (∀ source (learned : StyleState Document) subs,
      subSources source learned = some subs →
        ∀ sub ∈ subs, ∃ name, ∀ bbox zmin zmax,
          ∀ tile ∈ tilesIter env.tileForLngLat sub bbox zmin zmax,
            ∀ service : Service Document,
              service.app.styleState.lookup source.id = some learned →
                ∃ kind, (AssetRequest.vectorTile source.id name tile.1
                    tile.2.1 tile.2.2).resolve service =
                  some (⟨sub.id, tile.1, tile.2.1, tile.2.2⟩, kind)) ∧
    (∀ start finish labels order job source key,
      (serviceMachine env).initial start →
      (serviceMachine env).exec start labels = some finish →
      finish.warmJobs order = some job →
      job.phase.stage = 3 ∨ job.phase.stage = 4 →
      (source, key) ∈ job.enumeration env →
        ∃ url, expandUpstream bboxStr source key.z key.x key.y = .ok url) := by
  rw [clamped]
  refine ⟨?_, ?_, ?_⟩
  · intro source bbox zmin zmax tile member
    have ranges := inRange_of_mem_tilesIter member
    exact ⟨ranges, fun plain => expandUpstream_ok_iff.mpr ⟨plain, ranges⟩⟩
  · intro source learned subs content sub member
    obtain ⟨⟨name, templates⟩, entry, template, head, rfl⟩ :=
      subSources_cases content member
    exact ⟨name, fun bbox zmin zmax tile enumerated service known =>
      resolve_of_mem_tilesIter known entry head enumerated⟩
  · intro start finish labels order job source key initial run found loads
      member
    have expands := (expansion_of_run initial run found).expanded loads
    unfold WarmJob.enumeration sourceTiles at member
    rw [clamped] at member
    obtain ⟨other, listed, later⟩ := List.mem_flatMap.mp member
    obtain ⟨bbox, _, mapped⟩ := List.mem_flatMap.mp later
    obtain ⟨tile, enumerated, same⟩ := List.mem_map.mp mapped
    obtain ⟨rfl, rfl⟩ := Prod.mk.inj same
    exact expandUpstream_ok_iff.mpr ⟨isStyle_of_expands expands listed,
      inRange_of_mem_tilesIter enumerated⟩

/-- The download of a chart and a style while their tiles are enumerated. -/
def harbourSpawns : List (Label Nat) :=
  harbourWarm.take 28

/-- What the style of the download contributes. -/
def libertyTiles : ChartSource :=
  { libertySource with
    id := "style:2:liberty:tiles"
    upstream := .xyz "https://tiles.example/{z}/{x}/{y}" }

theorem enumerated_tiles_are_acceptable_harbourSpawns :
    ∃ finish job, (serviceMachine sampleDeployment).exec sampleService
        harbourSpawns = some finish ∧ finish.warmJobs 0 = some job ∧
      (libertyTiles, ⟨"style:2:liberty:tiles", 0, 0, 0⟩) ∈
        job.enumeration sampleDeployment ∧
      ∃ url, expandUpstream (fun _ _ _ => "") libertyTiles 0 0 0 =
        .ok url := by
  have ran : ((serviceMachine sampleDeployment).exec sampleService
      harbourSpawns).bind (fun finish => (finish.warmJobs 0).map fun job =>
        (job.phase.stage, decide ((libertyTiles,
          ⟨"style:2:liberty:tiles", 0, 0, 0⟩) ∈
            job.enumeration sampleDeployment))) = some (4, true) := by
    decide +kernel
  obtain ⟨finish, run, later⟩ := Option.bind_eq_some_iff.mp ran
  obtain ⟨job, found, facts⟩ := Option.map_eq_some_iff.mp later
  obtain ⟨loads, enumeration⟩ := Prod.mk.inj facts
  have clamped : sampleDeployment.tileForLngLat =
      tileForLngLat fun _ _ _ => (0, 0) := by
    funext lng lat z
    simp [sampleDeployment, tileForLngLat, clampToGrid]
  have member := of_decide_eq_true enumeration
  exact ⟨finish, job, run, found, member,
    (enumerated_tiles_are_acceptable clamped).2.2 _ _ _ _ _ _ _
      sampleService_initial run found (.inr loads) member⟩

end ChartLocker.Warm
