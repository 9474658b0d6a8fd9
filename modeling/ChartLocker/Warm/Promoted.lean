import ChartLocker.Warm.Coverage

/-!
# A finished warm covers its region

A job ends `done` only through its promotion.  At that moment its staging
region has exactly the tiles of its enumeration, so the region has them
afterwards.
-/

namespace ChartLocker.Warm

open Library Cache Catalog

variable {Document : Type} {env : Environment Document}
  {service next : Service Document} {label : Label Document}

/-! ## Stages of the driver -/

/-- The driver goes through its stages in this order: it checks the
configuration, reads the credit, expands the sources, counts the tiles, loads
them, and leaves. -/
def RunPhase.stage : RunPhase → Nat
  | .checking => 0
  | .crediting => 1
  | .expanding _ => 2
  | .gating => 3
  | .unlocking _ | .cleaning _ | .finishing | .releasing | .finished => 5
  | _ => 4

/-- The phases from which a driver leaves after it has loaded tiles. -/
def RunPhase.isLast : RunPhase → Bool
  | .replacing | .guarded _ | .promoting _ _ _ _ => true
  | _ => false

namespace WarmJob

variable {job later : WarmJob}

theorem Resume.stage (resume : Resume) : resume.phase.stage = 4 := by
  cases resume <;> rfl

theorem stage_accumulate (resume : Resume) (fetched : Fetched) :
    (job.accumulate service resume fetched).phase.stage = 4 := by
  cases fetched with
  | tile row | negative row =>
      simp only [accumulate]
      split
      · rfl
      · exact Resume.stage resume
  | skipped | error => exact Resume.stage resume
  | capped | cancelled => rfl

theorem stage_drained (result : Option Fetched) :
    (job.drained service result).phase.stage = 4 := by
  cases result with
  | some fetched => exact stage_accumulate .draining fetched
  | none => rfl

theorem stage_joinedTask (result : Option Fetched) :
    (job.joinedTask service result).phase.stage = 4 := by
  cases result with
  | some fetched =>
      simp only [joinedTask]
      split
      · exact stage_accumulate .joining fetched
      · rfl
  | none => rfl

theorem stage_flushed (resume : Resume) (outcome : PutManyOutcome) :
    (job.flushed resume outcome).phase.stage = 4 := by
  simp only [flushed]
  split
  · cases resume <;> rfl
  · exact Resume.stage resume

theorem stage_assetsStopped (reason : AssetStop) :
    (job.assetsStopped reason).phase.stage = 4 := by
  unfold assetsStopped
  split
  · rfl
  · cases reason <;> rfl

theorem stage_conclude : job.conclude.phase.stage = 5 := by
  unfold conclude
  split <;> rfl

theorem state_accumulate (resume : Resume) (fetched : Fetched) :
    (job.accumulate service resume fetched).state = job.state := by
  cases fetched with
  | tile row | negative row =>
      simp only [accumulate]
      split <;> rfl
  | _ => rfl

theorem state_drained (result : Option Fetched) :
    (job.drained service result).state = job.state := by
  cases result with
  | some fetched => exact state_accumulate .draining fetched
  | none => rfl

theorem state_joinedTask (result : Option Fetched) :
    (job.joinedTask service result).state = job.state := by
  cases result with
  | some fetched =>
      simp only [joinedTask]
      split
      · exact state_accumulate .joining fetched
      · rfl
  | none => rfl

theorem state_flushed (resume : Resume) (outcome : PutManyOutcome) :
    (job.flushed resume outcome).state = job.state := by
  simp only [flushed]
  split
  · cases resume <;> rfl
  · rfl

theorem state_assetsStopped (reason : AssetStop) :
    (job.assetsStopped reason).state = job.state := by
  unfold assetsStopped
  split
  · rfl
  · cases reason <;> rfl

theorem state_conclude : job.conclude.state = job.state := by
  unfold conclude
  split <;> rfl

theorem state_checkErrors : job.checkErrors.state = job.state := by
  unfold checkErrors
  split <;> rfl

theorem state_checkComplete : job.checkComplete.state = job.state := by
  unfold checkComplete
  split <;> rfl

theorem state_checkGeneration :
    (job.checkGeneration service).state = job.state := by
  unfold checkGeneration
  split <;> rfl

end WarmJob

open WarmJob in
/-- The driver never goes back, and leaves the loading from its last
phases. -/
theorem WarmJob.step_stage {job later : WarmJob} {event : Event}
    {effect : Effect}
    (stepped : job.step env service event = some (later, effect)) :
    job.phase.stage ≤ later.phase.stage ∧
      (job.phase.stage = 4 → later.phase.stage = 5 →
        job.phase.isLast = true) := by
  have loads : job.phase.stage = 4 → later.phase.stage = 4 →
      job.phase.stage ≤ later.phase.stage ∧
        (job.phase.stage = 4 → later.phase.stage = 5 →
          job.phase.isLast = true) := by
    intro before after
    constructor
    · omega
    · omega
  simp only [WarmJob.step] at stepped
  split at stepped
  all_goals try solve
    | (repeat' split at stepped) <;> first
        | contradiction
        | (cases stepped
           simp [RunPhase.stage, RunPhase.isLast, abort, abortExpansion,
             breakWith, enter, flush, *]
           done)
  · next draining =>
    split at stepped
    · obtain ⟨result, _, same⟩ := Option.map_eq_some_iff.mp stepped
      cases same
      exact loads (by rw [draining]; rfl) (stage_drained result)
    · contradiction
  · next flushing =>
    cases stepped
    exact loads (by rw [flushing]; rfl) (stage_flushed _ _)
  · next flushing =>
    cases stepped
    exact loads (by rw [flushing]; rfl) (Resume.stage _)
  · next awaiting =>
    split at stepped
    · obtain ⟨result, _, same⟩ := Option.map_eq_some_iff.mp stepped
      cases same
      exact loads (by rw [awaiting]; rfl) (stage_joinedTask result)
    · contradiction
  · next assets =>
    obtain ⟨⟨progress, _⟩, _, same⟩ := Option.map_eq_some_iff.mp stepped
    cases same
    refine loads (by rw [assets]; rfl) ?_
    cases progress with
    | going stage => rfl
    | staged => rfl
    | stopped reason => exact stage_assetsStopped reason
  · next replacing =>
    split at stepped <;> cases stepped
    · exact loads (by rw [replacing]; rfl) rfl
    · rw [replacing, stage_conclude]
      exact ⟨by decide, fun _ _ => rfl⟩
  · next unlocking =>
    cases stepped
    rw [unlocking, stage_conclude]
    exact ⟨le_rfl, fun loading => by cases loading⟩

theorem RunPhase.stage_le (phase : RunPhase) : phase.stage ≤ 5 := by
  cases phase <;> simp [RunPhase.stage]

theorem isLoading_of_stage {phase : RunPhase} :
    phase.isLoading = true ↔ phase.stage = 4 := by
  cases phase <;> simp [RunPhase.isLoading, RunPhase.stage]

/-! ## The sources of a job -/

/-- `expand_warm_sources`: a style contributes the sub-sources of an entry which
was known for it, and any other source itself. -/
inductive Expands (known : ChartSource → Config.StyleState Document → Prop) :
    List ChartSource → List ChartSource → Prop where
  | nil : Expands known [] []
  | plain {sources expanded : List ChartSource} {source : ChartSource}
      (before : Expands known sources expanded)
      (plain : source.isStyle = false) :
      Expands known (sources ++ [source]) (expanded ++ [source])
  | style {sources expanded subs : List ChartSource} {source : ChartSource}
      {learned : Config.StyleState Document}
      (before : Expands known sources expanded)
      (style : source.isStyle = true) (entry : known source learned)
      (content : subSources source learned = some subs) :
      Expands known (sources ++ [source]) (expanded ++ subs)

theorem Expands.mono {known later : ChartSource → Config.StyleState Document →
      Prop} {sources expanded : List ChartSource}
    (expands : Expands known sources expanded)
    (grows : ∀ source learned, known source learned → later source learned) :
    Expands later sources expanded := by
  induction expands with
  | nil => exact .nil
  | plain before plain induction => exact .plain induction plain
  | style before style entry content induction =>
      exact .style induction style (grows _ _ entry) content

/-- How far the driver has expanded its sources. -/
structure WarmJob.Expansion
    (known : ChartSource → Config.StyleState Document → Prop)
    (job : WarmJob) : Prop where
  starts : job.phase.stage ≤ 1 → job.expanded = []
  expanding : ∀ rest, job.phase = .expanding rest →
    ∃ before, job.sources = before ++ rest ∧
      Expands known before job.expanded
  expanded : job.phase.stage = 3 ∨ job.phase.stage = 4 →
    Expands known job.sources job.expanded

theorem WarmJob.Expansion.mono
    {known later : ChartSource → Config.StyleState Document → Prop}
    {job : WarmJob} (expansion : job.Expansion known)
    (grows : ∀ source learned, known source learned → later source learned) :
    job.Expansion later where
  starts := expansion.starts
  expanding rest phase := by
    obtain ⟨before, sources, expands⟩ := expansion.expanding rest phase
    exact ⟨before, sources, expands.mono grows⟩
  expanded loads := (expansion.expanded loads).mono grows

section Expansion

variable {known : ChartSource → Config.StyleState Document → Prop}
  {job later : WarmJob}

theorem WarmJob.expansion_of_left (left : later.phase.stage = 5) :
    later.Expansion known where
  starts early := by omega
  expanding rest phase := by
    rw [phase] at left
    cases left
  expanded loads := by omega

theorem WarmJob.expansion_of_loading (loading : later.phase.stage = 4)
    (expanded : Expands known later.sources later.expanded) :
    later.Expansion known where
  starts early := by omega
  expanding rest phase := by
    rw [phase] at loading
    cases loading
  expanded _ := expanded

theorem WarmJob.expansion_of_expanding {before rest : List ChartSource}
    (sources : later.sources = before ++ rest)
    (expands : Expands known before later.expanded)
    (phase : later.phase = .expanding rest) : later.Expansion known where
  starts early := by
    rw [phase] at early
    exact absurd early (by simp [RunPhase.stage])
  expanding other same := by
    cases phase.symm.trans same
    exact ⟨before, sources, expands⟩
  expanded loads := by
    rw [phase] at loads
    simp [RunPhase.stage] at loads

/-- One source of the list. -/
theorem WarmJob.Expansion.expand {event : Event} {effect : Effect}
    {rest : List ChartSource} (expansion : job.Expansion known)
    (phase : job.phase = .expanding rest)
    (entry : ∀ source rest learned, event = .learned true →
      job.phase = .expanding (source :: rest) →
      service.app.styleState.lookup source.id = some learned →
        known source learned)
    (stepped : job.step env service event = some (later, effect)) :
    later.Expansion known := by
  obtain ⟨before, sources, expands⟩ := expansion.expanding rest phase
  cases rest with
  | nil =>
      simp only [WarmJob.step, phase] at stepped
      split at stepped
      all_goals first | contradiction | (next same => cases same; done) | skip
      split at stepped <;> cases stepped
      · exact expansion_of_left rfl
      · refine ⟨by simp [WarmJob.enter, RunPhase.stage],
          fun _ same => RunPhase.noConfusion same, fun _ => ?_⟩
        change Expands known job.sources job.expanded
        rw [sources, List.append_nil]
        exact expands
  | cons source rest =>
      have split : job.sources = (before ++ [source]) ++ rest := by
        rw [sources, List.append_assoc]
        rfl
      simp only [WarmJob.step, phase] at stepped
      split at stepped
      all_goals first | contradiction | (next same => cases same; done) | skip
      · -- A source which is no style.
        next same =>
        cases same
        split at stepped
        · contradiction
        · next plain =>
          cases stepped
          exact expansion_of_expanding split
            (.plain expands (by simpa using plain)) rfl
      · -- A style has been learned.
        next same =>
        cases same
        split at stepped
        · next style =>
          split at stepped
          · next subs content =>
            obtain ⟨learned, found, subSources⟩ :=
              Option.bind_eq_some_iff.mp content
            split at stepped
            · next succeeds =>
              cases stepped
              have event := congrArg Event.learned succeeds
              exact expansion_of_expanding split (.style expands style
                (entry source rest learned event phase found) subSources) rfl
            · cases stepped
              exact expansion_of_left rfl
          · cases stepped
            exact expansion_of_left rfl
        · contradiction

theorem WarmJob.Expansion.step {event : Event} {effect : Effect}
    (expansion : job.Expansion known)
    (entry : ∀ source rest learned, event = .learned true →
      job.phase = .expanding (source :: rest) →
      service.app.styleState.lookup source.id = some learned →
        known source learned)
    (stepped : job.step env service event = some (later, effect)) :
    later.Expansion known := by
  have spec := (WarmJob.step_spec stepped).1
  obtain ⟨ordered, _⟩ := WarmJob.step_stage stepped
  cases phase : job.phase with
  | checking =>
      have starts := expansion.starts (by rw [phase]; decide)
      simp only [WarmJob.step, phase] at stepped
      repeat' split at stepped
      all_goals first | contradiction | cases stepped
      · exact expansion_of_left rfl
      · exact ⟨fun _ => starts, fun _ same => RunPhase.noConfusion same,
          by simp [WarmJob.enter, RunPhase.stage]⟩
  | crediting =>
      have starts := expansion.starts (by rw [phase]; decide)
      have expands : Expands known [] job.expanded := by
        rw [starts]
        exact .nil
      simp only [WarmJob.step, phase] at stepped
      repeat' split at stepped
      all_goals first | contradiction | cases stepped
      · exact expansion_of_expanding rfl expands rfl
      · exact expansion_of_expanding rfl expands rfl
  | expanding rest => exact expansion.expand phase entry stepped
  | gating =>
      have expands := expansion.expanded (.inl (by rw [phase]; rfl))
      simp only [WarmJob.step, phase] at stepped
      repeat' split at stepped
      all_goals first | contradiction | cases stepped
      · exact expansion_of_left rfl
      · exact expansion_of_loading rfl expands
  | unlocking | cleaning | finishing | releasing | finished =>
      rw [phase] at ordered
      exact expansion_of_left (Nat.le_antisymm (RunPhase.stage_le _) ordered)
  | _ =>
      have loading : job.phase.stage = 4 := by rw [phase]; rfl
      have expands := expansion.expanded (.inr loading)
      have bounds : later.phase.stage = 4 ∨ later.phase.stage = 5 := by
        have most := RunPhase.stage_le later.phase
        omega
      rcases bounds with goes | left
      · have same : later.expanded = job.expanded := by
          cases WarmJob.step_loads stepped with
          | passes passes =>
              exact (passes.loading (isLoading_of_stage.mpr goes)).2
          | enumerates gating expanded => exact expanded
          | spawns => rfl
          | collects loading member found finished expanded => exact expanded
          | stores flushing expanded => exact expanded
          | loses flushing expanded => exact expanded
        apply expansion_of_loading goes
        rw [spec, same]
        exact expands
      · exact expansion_of_left left

end Expansion

/-! ## The verdict `done` -/

/-- The driver is behind its promotion, or has nothing to promote, and its
verdict is `done`. -/
def WarmJob.Promoted (job : WarmJob) : Prop :=
  match job.phase with
  | .unlocking _ | .finishing => job.finalState = .done
  | .releasing | .finished => job.state = .done
  | _ => False

section Verdict

variable {job later : WarmJob}

theorem WarmJob.Promoted.stage (promoted : job.Promoted) :
    job.phase.stage = 5 := by
  unfold WarmJob.Promoted at promoted
  split at promoted
  · next phase => rw [phase]; rfl
  · next phase => rw [phase]; rfl
  · next phase => rw [phase]; rfl
  · next phase => rw [phase]; rfl
  · exact promoted.elim

theorem WarmJob.Promoted.not_early (promoted : later.Promoted)
    {event : Event} {effect : Effect} (early : job.phase.stage ≤ 3)
    (stepped : job.step env service event = some (later, effect)) : False := by
  simp only [WarmJob.step] at stepped
  split at stepped
  all_goals first
    | (next phase => rw [phase] at early; simp [RunPhase.stage] at early)
    | skip
  all_goals
    (repeat' split at stepped)
    all_goals first
      | contradiction
      | (cases stepped
         simp [WarmJob.Promoted, WarmJob.abort, WarmJob.abortExpansion,
           WarmJob.enter] at promoted)

/-- A conclusion is the end of a promotion. -/
theorem WarmJob.Promoted.of_conclude (promoted : job.conclude.Promoted) :
    job.finalState = .done := by
  unfold WarmJob.conclude at promoted
  split at promoted
  · next done => exact done
  · exact promoted.elim

theorem WarmJob.replacements_ne_nil {region : String}
    (named : job.regionId = some region) : job.replacements ≠ [] := by
  simp [WarmJob.replacements, WarmJob.storage, named]

open WarmJob in
/-- A job is recorded as done when its driver has finished. -/
theorem WarmJob.step_state {event : Event} {effect : Effect}
    (stepped : job.step env service event = some (later, effect))
    (done : later.state = .done) :
    job.state = .done ∨ later.phase = .releasing := by
  have kept : later.state = job.state →
      job.state = .done ∨ later.phase = .releasing :=
    fun same => .inl (same.symm.trans done)
  simp only [WarmJob.step] at stepped
  split at stepped
  all_goals try solve
    | (repeat' split at stepped) <;> first
        | contradiction
        | (cases stepped; exact kept rfl)
        | (cases stepped; cases done)
        | (cases stepped; exact .inr rfl)
  · split at stepped
    · obtain ⟨result, _, same⟩ := Option.map_eq_some_iff.mp stepped
      cases same
      exact kept (state_drained result)
    · contradiction
  · cases stepped
    exact kept (state_flushed _ _)
  · split at stepped
    · obtain ⟨result, _, same⟩ := Option.map_eq_some_iff.mp stepped
      cases same
      exact kept (state_joinedTask result)
    · contradiction
  · split at stepped <;> cases stepped
    · exact kept state_checkErrors
    · exact kept state_checkErrors
  · have checked :
        (job.checkErrors.checkComplete.checkGeneration service).state =
          job.state :=
      state_checkGeneration.trans (state_checkComplete.trans state_checkErrors)
    split at stepped <;> cases stepped
    · exact kept checked
    · exact kept checked
  · obtain ⟨⟨progress, _⟩, _, same⟩ := Option.map_eq_some_iff.mp stepped
    cases same
    cases progress with
    | going stage => exact kept rfl
    | staged => exact kept rfl
    | stopped reason => exact kept (state_assetsStopped reason)
  · split at stepped <;> cases stepped
    · exact kept state_checkGeneration
    · exact kept (state_conclude.trans state_checkGeneration)
  · split at stepped <;> cases stepped
    · exact kept state_checkGeneration
    · exact kept state_checkGeneration
  · cases stepped
    exact kept state_conclude

/-- A job which is recorded as done has nothing left but to release its
region. -/
def WarmJob.Ended (job : WarmJob) : Prop :=
  job.state = .done → job.phase = .releasing ∨ job.phase = .finished

theorem WarmJob.Ended.promoted (ended : job.Ended) (done : job.state = .done) :
    job.Promoted := by
  unfold WarmJob.Promoted
  rcases ended done with phase | phase
  · rw [phase]
    exact done
  · rw [phase]
    exact done

theorem WarmJob.Ended.step {event : Event} {effect : Effect}
    (ended : job.Ended)
    (stepped : job.step env service event = some (later, effect)) :
    later.Ended := by
  intro done
  rcases WarmJob.step_state stepped done with before | releasing
  · rcases ended before with phase | phase
    · simp only [WarmJob.step, phase] at stepped
      split at stepped
      all_goals first | contradiction | cases stepped
      exact .inr rfl
    · simp [WarmJob.step, phase] at stepped
  · exact .inl releasing

/-- The verdict `done` of a job with a region is that of a promotion. -/
theorem WarmJob.step_promotes {event : Event} {effect : Effect}
    {region : String} (own : job.Own) (named : job.regionId = some region)
    (stepped : job.step env service event = some (later, effect))
    (promoted : later.Promoted) :
    job.Promoted ∨ ∃ holder cap regions position disk now,
      job.phase = .promoting holder cap regions position ∧
      event = .call disk now ∧ job.finalState = .done ∧
      effect = .call (.promoteStagedRegions job.replacements
        (max (regions - position) 0) position cap) ∧
      (service.cache.promoteStagedRegions job.replacements
        (max (regions - position) 0) position cap).1 = true := by
  have left := promoted.stage
  obtain ⟨ordered, last⟩ := WarmJob.step_stage stepped
  cases phase : job.phase with
  | checking | crediting | expanding | gating =>
      refine (promoted.not_early ?_ stepped).elim
      rw [phase]
      simp [RunPhase.stage]
  | replacing =>
      simp only [WarmJob.step, phase] at stepped
      split at stepped
      all_goals first | contradiction | skip
      split at stepped <;> cases stepped
      · cases left
      · next nothing =>
        refine absurd ⟨promoted.of_conclude, ?_⟩ nothing
        have same : (job.checkGeneration service).replacements =
            job.replacements := by
          unfold WarmJob.checkGeneration
          split <;> rfl
        rw [same]
        exact WarmJob.replacements_ne_nil named
  | guarded holder =>
      simp only [WarmJob.step, phase] at stepped
      split at stepped
      all_goals first | contradiction | skip
      split at stepped <;> cases stepped
      · cases left
      · next fails => exact absurd promoted fails
  | promoting holder cap regions position =>
      simp only [WarmJob.step, phase] at stepped
      split at stepped
      all_goals first | contradiction | skip
      · next same =>
        cases same
        cases stepped
        change (if _ then job.finalState else WarmState.capped) = .done
          at promoted
        split at promoted
        · next succeeded =>
          exact .inr ⟨_, _, _, _, _, _, rfl, rfl, promoted, rfl, succeeded⟩
        · cases promoted
      · next same =>
        cases same
        cases stepped
        cases promoted
  | unlocking holder =>
      simp only [WarmJob.step, phase] at stepped
      split at stepped
      all_goals first | contradiction | skip
      cases stepped
      left
      simp only [WarmJob.Promoted, phase]
      exact promoted.of_conclude
  | cleaning stagings =>
      have fails := own.fails (by rw [phase]; rfl)
      simp only [WarmJob.step, phase] at stepped
      split at stepped
      all_goals first | contradiction | cases stepped
      · exact promoted.elim
      · exact promoted.elim
      · exact absurd promoted fails
  | finishing =>
      simp only [WarmJob.step, phase] at stepped
      split at stepped
      all_goals first | contradiction | cases stepped
      left
      simp only [WarmJob.Promoted, phase]
      exact promoted
  | releasing =>
      simp only [WarmJob.step, phase] at stepped
      split at stepped
      all_goals first | contradiction | cases stepped
      left
      simp only [WarmJob.Promoted, phase]
      exact promoted
  | finished => simp [WarmJob.step, phase] at stepped
  | _ =>
      have loading : job.phase.stage = 4 := by rw [phase]; rfl
      have leaves := last loading left
      rw [phase] at leaves
      cases leaves

end Verdict

/-! ## The promotion -/

/-- The members of a region are the tiles which the job enumerates, they are
stored and pinned, and the staging region of the job is empty. -/
structure WarmJob.CoversRegion (env : Environment Document) (tables : Tables)
    (job : WarmJob) (region : String) : Prop where
  members : ∀ key, ⟨region, key⟩ ∈ tables.regionTiles ↔ key ∈ job.keys env
  stored : ∀ key ∈ job.keys env,
    ∃ row ∈ tables.tiles.rows, row.key = key ∧ row.pinned = true
  unstaged : ∀ key,
    ⟨stagingRegion region job.jobId, key⟩ ∉ tables.regionTiles

section Promotion

variable {order : Nat} {job later : WarmJob} {region : String}

theorem mem_replacements (named : job.regionId = some region) :
    (stagingRegion region job.jobId, region) ∈ job.replacements := by
  simp [WarmJob.replacements, WarmJob.storage, named]

/-- The regions which a promotion renames are distinct. -/
theorem replacementIds_nodup (names : Named service)
    (found : service.warmJobs order = some job)
    (named : job.regionId = some region) :
    (replacementIds job.replacements).Nodup := by
  have valid : validRegionId region = true := by
    have checked := names.region order job found
    rw [named] at checked
    exact checked
  have outside := startsWith_of_validRegionId valid
  have jobId := (names.order order job found).2.2
  have apart : ∀ {left right : String},
      startsWith left stagingRegionPrefix = true →
      startsWith right stagingRegionPrefix = false → left ≠ right := by
    rintro left right staged free rfl
    cases staged.symm.trans free
  have tiles : startsWith (stagingRegion region job.jobId)
      stagingRegionPrefix = true := startsWith_stagingRegion _ _
  have assets : startsWith (assetStagingRegion job.jobId)
      stagingRegionPrefix = true := startsWith_assetStagingRegion _
  cases staged : job.assetStaging with
  | none =>
      have ids : replacementIds job.replacements =
          [stagingRegion region job.jobId, region] := by
        simp [replacementIds, WarmJob.replacements, WarmJob.storage, named,
          staged]
      rw [ids]
      simp [apart tiles outside]
  | some staging =>
      have own := (names.own order job found).assets staging staged
      have ids : replacementIds job.replacements =
          [stagingRegion region job.jobId, assetStagingRegion job.jobId,
            region, basemapAssetsRegionId] := by
        simp [replacementIds, WarmJob.replacements, WarmJob.storage, named,
          staged, own]
      rw [ids]
      simp [apart tiles outside, apart assets outside,
        apart tiles startsWith_basemapAssets,
        apart assets startsWith_basemapAssets, validRegionId_ne_assets valid,
        @stagingRegion_ne_assets region job.jobId job.jobId _ _ jobId]

/-- Before its promotion a download without errors is in its staging region
alone. -/
theorem Covering.loaded (covering : Covering env service)
    (found : service.warmJobs order = some job)
    (phase : job.phase.level = 4) (loading : job.phase.isLoading = true)
    (still : job.phase.isFlush = false) (done : job.finalState = .done)
    {staging : String} {key : TileKey} (stored : job.storage = some staging) :
    ⟨staging, key⟩ ∈ service.cache.tables.regionTiles ↔
      key ∈ job.keys env := by
  have covers := covering.job order job found
  have settled := covers.settled
  refine ⟨covers.staged staging key stored, fun owes => ?_⟩
  have clean := settled.errors done (by omega)
  refine (covers.owed loading done clean staging key stored owes).resolve_left
    ?_
  have remaining := settled.remaining done (by omega)
  have set := settled.set done (by omega)
  have rows : job.rows = [] :=
    (WarmJob.rows_of_still still).trans (settled.batch done (by omega))
  rintro (waits | row | ⟨id, member, _⟩)
  · rw [remaining] at waits
    cases waits
  · rw [rows] at row
    cases row
  · rw [set] at member
    cases member

/-- The promotion of a download. -/
theorem Covering.promotes (covering : Covering env service)
    (staged : Staged service)
    (found : service.warmJobs order = some job)
    (named : job.regionId = some region) (done : job.finalState = .done)
    {holder : Nat} {cap regions position : Int}
    (promoting : job.phase = .promoting holder cap regions position)
    {realBudget positionBudget : Int}
    (promoted : (service.cache.promoteStagedRegions job.replacements realBudget
      positionBudget cap).1 = true) :
    job.CoversRegion env (service.cache.promoteStagedRegions job.replacements
      realBudget positionBudget cap).2.tables region := by
  have distinct := replacementIds_nodup staged.named found named
  have stored : job.storage = some (stagingRegion region job.jobId) := by
    rw [WarmJob.storage, named]
    rfl
  have tables : (service.cache.promoteStagedRegions job.replacements
      realBudget positionBudget cap).2.tables =
        TileCache.replaceRegions job.replacements service.cache.tables := by
    rw [promoteStagedRegions_eq] at promoted ⊢
    split at promoted
    · next room => rw [if_pos room]
    · cases promoted
  rw [tables]
  have members : ∀ key, ⟨region, key⟩ ∈ (TileCache.replaceRegions
      job.replacements service.cache.tables).regionTiles ↔
        key ∈ job.keys env := by
    intro key
    rw [mem_target_replaceRegions distinct (mem_replacements named)]
    exact covering.loaded found (by rw [promoting]; rfl)
      (by rw [promoting]; rfl) (by rw [promoting]; rfl) done stored
  refine ⟨members, fun key member => ?_, fun key => ?_⟩
  · exact (joinsPinned_replaceRegions staged.linked).stored
      ((members key).mpr member)
  · exact not_mem_staging_replaceRegions distinct (mem_replacements named)

end Promotion

/-! ## Runs -/

/-- A step of the run at which the driver goes on from the learning of the
style finds the entry for it. -/
def LearnedIn (env : Environment Document) (start : Service Document)
    (labels : List (Label Document)) (order : Nat) (source : ChartSource)
    (learned : Config.StyleState Document) : Prop :=
  ∃ before after state job rest,
    labels = before ++ .drive order (.learned true) :: after ∧
    (serviceMachine env).exec start before = some state ∧
    state.warmJobs order = some job ∧
    job.phase = .expanding (source :: rest) ∧
    state.app.styleState.lookup source.id = some learned

theorem LearnedIn.later {start : Service Document}
    {labels : List (Label Document)} {order : Nat} {source : ChartSource}
    {learned : Config.StyleState Document}
    (known : LearnedIn env start labels order source learned)
    (label : Label Document) :
    LearnedIn env start (labels ++ [label]) order source learned := by
  obtain ⟨before, after, state, job, rest, rfl, facts⟩ := known
  refine ⟨before, after ++ [label], state, job, rest, ?_, facts⟩
  rw [List.append_assoc]
  rfl

/-- A step of a run promotes the download of a job, and covers its region.  The
job has expanded its styles by the entries which it has found for them. -/
def PromotedIn (env : Environment Document) (start finish : Service Document)
    (labels : List (Label Document)) (order : Nat) (job : WarmJob)
    (region : String) : Prop :=
  ∃ before disk now after state next promoting,
    labels = before ++ .drive order (.call disk now) :: after ∧
    (serviceMachine env).exec start before = some state ∧
    step env state (.drive order (.call disk now)) = some next ∧
    (serviceMachine env).exec next after = some finish ∧
    state.warmJobs order = some promoting ∧
    promoting.toRunSpec = job.toRunSpec ∧
    (∃ holder cap regions position,
      promoting.phase = .promoting holder cap regions position) ∧
    Expands (LearnedIn env start labels order) job.sources
      promoting.expanded ∧
    promoting.CoversRegion env next.cache.tables region

theorem PromotedIn.later {start state finish : Service Document}
    {labels : List (Label Document)} {order : Nat} {job later : WarmJob}
    {region : String} (promoted : PromotedIn env start state labels order job
      region) (spec : later.toRunSpec = job.toRunSpec)
    (stepped : step env state label = some finish) :
    PromotedIn env start finish (labels ++ [label]) order later region := by
  obtain ⟨before, disk, now, after, reached, next, promoting, rfl, run,
    promotes, rest, found, same, phase, expands, covers⟩ := promoted
  refine ⟨before, disk, now, after ++ [label], reached, next, promoting, ?_,
    run, promotes, ?_, found, same.trans spec.symm, phase, ?_, covers⟩
  · rw [List.append_assoc]
    rfl
  · exact Machine.exec_append_eq_some.mpr ⟨state, rest,
      Machine.exec_cons_eq_some.mpr ⟨finish, stepped, rfl⟩⟩
  · rw [spec]
    exact expands.mono fun _ _ known => known.later label

/-- Every job of the registry stays in step with the expansion of its
sources. -/
theorem expansions_step
    {known : Nat → ChartSource → Config.StyleState Document → Prop}
    {state finish : Service Document}
    (expansions : ∀ order job, state.warmJobs order = some job →
      job.Expansion (known order))
    (entry : ∀ order job source rest learned,
      label = .drive order (.learned true) →
      state.warmJobs order = some job →
      job.phase = .expanding (source :: rest) →
      state.app.styleState.lookup source.id = some learned →
        known order source learned)
    (stepped : step env state label = some finish) :
    ∀ order job, finish.warmJobs order = some job →
      job.Expansion (known order) := by
  intro order job found
  cases job_origin stepped found with
  | flagged cancel others earlier =>
      have before := expansions order _ earlier
      exact ⟨before.starts, before.expanding, before.expanded⟩
  | moves earlier advanced =>
      refine (expansions order _ earlier).step ?_ advanced
      rintro source rest learned rfl phase
      exact entry order _ source rest learned rfl earlier phase
  | registered present registering room seq =>
      refine ⟨fun _ => rfl, ?_, ?_⟩
      · rintro rest ⟨⟩
      · rintro (early | loads)
        · cases early
        · cases loads

/-- The invariant of a run: a job which is behind its promotion has been
promoted in the run. -/
structure Accounts (env : Environment Document) (start : Service Document)
    (labels : List (Label Document)) (state : Service Document) : Prop where
  staged : Staged state
  covering : Covering env state
  expansion : ∀ order job, state.warmJobs order = some job →
    job.Expansion (LearnedIn env start labels order)
  ended : ∀ order job, state.warmJobs order = some job → job.Ended
  promoted : ∀ order job region, state.warmJobs order = some job →
    job.regionId = some region → job.Promoted →
    PromotedIn env start state labels order job region

theorem accounts_step {start state finish : Service Document}
    {labels : List (Label Document)}
    (reached : (serviceMachine env).exec start labels = some state)
    (accounts : Accounts env start labels state)
    (stepped : step env state label = some finish) :
    Accounts env start (labels ++ [label]) finish where
  staged := accounts.staged.step stepped
  covering := accounts.covering.step accounts.staged stepped
  expansion := by
    apply expansions_step _ _ stepped
    · intro order job found
      exact (accounts.expansion order job found).mono fun _ _ known =>
        known.later label
    · rintro order job source rest learned rfl found phase entry
      exact ⟨labels, [], state, job, rest, rfl, reached, found, phase, entry⟩
  ended order job found := by
    cases job_origin stepped found with
    | flagged cancel others earlier =>
        have before : WarmJob.Ended _ := accounts.ended order _ earlier
        exact before
    | moves earlier advanced =>
        exact (accounts.ended order _ earlier).step advanced
    | registered present registering room seq =>
        intro done
        cases done
  promoted order job region found named promoted := by
    cases job_origin stepped found with
    | flagged cancel others earlier =>
        exact (accounts.promoted order _ region earlier named promoted).later
          rfl stepped
    | moves earlier advanced =>
        rename_i event before effect
        have spec := (WarmJob.step_spec advanced).1
        have region' : before.regionId = some region := by
          rw [← named, spec]
        have own := accounts.staged.named.own order before earlier
        rcases WarmJob.step_promotes own region' advanced promoted with
          already | ⟨holder, cap, regions, position, disk, now, phase, rfl,
            done, rfl, succeeded⟩
        · exact (accounts.promoted order before region earlier region'
            already).later spec stepped
        · have covers := accounts.covering.promotes accounts.staged earlier
            region' done phase succeeded
          have called := (drive_performed stepped earlier advanced).cache
          refine ⟨labels, disk, now, [], state, finish, before, rfl, reached,
            stepped, rfl, earlier, spec.symm, ⟨_, _, _, _, phase⟩, ?_, ?_⟩
          · rw [spec]
            refine ((accounts.expansion order before earlier).expanded
              (.inr (by rw [phase]; rfl))).mono fun _ _ known =>
                known.later _
          · rw [called]
            exact covers
    | registered present registering room seq => exact promoted.elim

/-- A warm of a region which ends `done` has promoted its download, and the
promotion has left the region with exactly the tiles which the job enumerates
over its expanded sources, all of them stored and pinned, and nothing in the
staging region. -/
theorem done_warm_covers_region {start finish : Service Document}
    {labels : List (Label Document)} {order : Nat} {job : WarmJob}
    {region : String} (initial : (serviceMachine env).initial start)
    (run : (serviceMachine env).exec start labels = some finish)
    (found : finish.warmJobs order = some job)
    (named : job.regionId = some region) (done : job.state = .done) :
    PromotedIn env start finish labels order job region := by
  have accounts : Accounts env start labels finish := by
    refine Machine.exec_history (motive := Accounts env start) run ?_ ?_
    · have staged := staged_of_initial initial
      obtain ⟨tables, deferred, bootId, _, _, _, rfl⟩ := initial
      refine ⟨staged, covering_of_idle (fun _ => rfl) fun _ => rfl,
        ?_, ?_, ?_⟩
      · rintro _ _ ⟨⟩
      · rintro _ _ ⟨⟩
      · rintro _ _ _ ⟨⟩
    · exact fun before label state next reached accounts stepped =>
        accounts_step reached accounts stepped
  exact accounts.promoted order job region found named
    ((accounts.ended order job found).promoted done)

/-- A chart and a style, over two boxes which overlap. -/
def harbourRequest : WarmRequest where
  sources := [sampleChart, Config.libertySource]
  bbox := ⟨-1, -1, 1, 1⟩
  additionalBbox := some ⟨0, -1, 2, 1⟩
  minzoom := 0
  maxzoom := 0
  regionId := some "harbour"

/-- The next tile, by a task of its own. -/
def tileDownload (id : Nat) : List (Label Nat) :=
  [.drive 0 .go, .drive 0 (.spawned id), .work id .go,
    .work id (.call ⟨none, 0⟩ 6), .work id .go, .work id .go,
    .work id (.call ⟨none, 0⟩ 7), .work id .go,
    .work id (.answer ⟨200, "image/png", none, [1, 2, 3]⟩ 8), .work id .go,
    .drive 0 (.joined id), .drive 0 .empty]

/-- A download of four tiles, of which two are the same again, from the push of
its sources to its promotion. -/
def harbourWarm : List (Label Nat) :=
  (Config.acceptedPush 1
      { Config.sampleBody with
        sources := [sampleChart, Config.libertySource]
        regionsBudgetBytes := some 500 } ++
    Config.acceptedLearn 2 "liberty" 1 7).map .config ++
    [.request 1 (.warm harbourRequest), .work 1 (.locked 2), .work 1 .go,
      .work 1 .go] ++
    [.drive 0 .go, .drive 0 (.call ⟨none, 0⟩ 5), .drive 0 .go,
      .drive 0 (.learned true), .drive 0 .go, .drive 0 .go] ++
    tileDownload 5 ++ tileDownload 6 ++ tileDownload 7 ++ tileDownload 8 ++
    [.drive 0 .go, .drive 0 .go, .drive 0 .empty, .drive 0 .go,
      .drive 0 (.call ⟨none, 0⟩ 9), .drive 0 .go] ++
    -- The style has neither glyphs nor sprites.
    [.drive 0 .go, .drive 0 .go, .drive 0 (.call ⟨none, 0⟩ 10), .drive 0 .go,
      .drive 0 .go, .drive 0 .go, .drive 0 .go, .drive 0 .empty, .drive 0 .go,
      .drive 0 .go] ++
    [.drive 0 .go, .drive 0 (.locked 7), .drive 0 .go,
      .drive 0 (.call ⟨none, 0⟩ 11), .drive 0 .go, .drive 0 .go]

theorem done_warm_covers_region_harbourWarm :
    ∃ finish job, (serviceMachine sampleDeployment).exec sampleService
        harbourWarm = some finish ∧
      finish.warmJobs 0 = some job ∧
      PromotedIn sampleDeployment sampleService finish harbourWarm 0 job
        "harbour" := by
  have ran : ((serviceMachine sampleDeployment).exec sampleService
      harbourWarm).bind (fun finish => (finish.warmJobs 0).map fun job =>
        (job.regionId, job.state)) = some (some "harbour", .done) := by
    decide +kernel
  obtain ⟨finish, run, later⟩ := Option.bind_eq_some_iff.mp ran
  obtain ⟨job, found, facts⟩ := Option.map_eq_some_iff.mp later
  obtain ⟨named, done⟩ := Prod.mk.inj facts
  exact ⟨finish, job, run, found,
    done_warm_covers_region sampleService_initial run found named done⟩

end ChartLocker.Warm
