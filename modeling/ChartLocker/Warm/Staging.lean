import ChartLocker.Cache.Joins
import ChartLocker.Warm.Download

/-!
# Staging regions

A job downloads into regions which are named after it.  The names are issued
once: only the driver and the tasks of a job write the memberships of its
staging region, and nothing but its promotion and its cleanup removes one
while the process runs.
-/

namespace ChartLocker.Warm

open Library Cache Catalog

variable {Document : Type} {env : Environment Document}
  {service next : Service Document} {label : Label Document}

/-! ## Parties -/

/-- What a tile task never changes. -/
theorem TileTask.step_keeps {task moved : TileTask} {event : Event}
    {effect : Effect}
    (stepped : task.step env service event = some (moved, effect)) :
    moved.order = task.order ∧ moved.source = task.source ∧
      moved.key = task.key ∧ moved.target = task.target ∧
      moved.storage = task.storage := by
  simp only [TileTask.step, TileTask.enter, TileTask.missed] at stepped
  repeat' split at stepped
  all_goals first
    | contradiction
    | (cases stepped; exact ⟨rfl, rfl, rfl, rfl, rfl⟩)

theorem AssetTask.step_keeps {task moved : AssetTask} {event : Event}
    {effect : Effect}
    (stepped : task.step env service event = some (moved, effect)) :
    moved.order = task.order ∧ moved.region = task.region := by
  simp only [AssetTask.step, AssetTask.enter, AssetTask.fetch] at stepped
  repeat' split at stepped
  all_goals first
    | contradiction
    | (cases stepped; exact ⟨rfl, rfl⟩)

theorem Deletion.step_keeps {deletion moved : Deletion} {event : Event}
    {effect : Effect}
    (stepped : deletion.step service event = some (some moved, effect)) :
    moved.regionId = deletion.regionId := by
  simp only [Deletion.step] at stepped
  repeat' split at stepped
  all_goals first
    | contradiction
    | (cases stepped; done)
    | (cases stepped; rfl)

theorem WarmRequest.valid_of_validate {request : WarmRequest}
    {accepted : List ChartSource × Nat}
    (validated : request.validate env service = .ok accepted) :
    request.regionId.all validRegionId = true := by
  simp only [WarmRequest.validate] at validated
  iterate 5 (split at validated; · contradiction)
  next valid =>
  cases region : request.regionId with
  | none => rfl
  | some id => simpa [region] using valid

/-- A request which goes on keeps its region, which its checks have
accepted. -/
theorem Start.step_keeps {start moved : Start} {event : Event}
    {effect : Effect}
    (stepped : start.step env service event = some (some moved, effect)) :
    moved.request = start.request ∧
      (start.phase ≠ .waiting ∨
        start.request.regionId.all validRegionId = true) := by
  simp only [Start.step] at stepped
  split at stepped
  all_goals try solve | (repeat' split at stepped) <;> first
      | contradiction
      | (cases stepped; done)
      | (cases stepped
         refine ⟨rfl, .inl ?_⟩
         simp [*]
         done)
  · split at stepped
    · cases stepped
    · next resolved total accepted =>
      cases stepped
      exact ⟨rfl, .inr (WarmRequest.valid_of_validate accepted)⟩

/-! ## The names of a job -/

theorem WarmJob.storage_eq_some {job : WarmJob} {staging : String} :
    job.storage = some staging ↔ ∃ region, job.regionId = some region ∧
      stagingRegion region job.jobId = staging :=
  Option.map_eq_some_iff

/-- A name under which the job downloads. -/
def WarmJob.Stages (job : WarmJob) (staging : String) : Prop :=
  job.storage = some staging ∨ staging = assetStagingRegion job.jobId

def RunPhase.isCleaning : RunPhase → Bool
  | .cleaning _ => true
  | _ => false

/-- The staging regions which a job has staged and cleans up are its own, and
it cleans up after a failure only. -/
structure WarmJob.Own (job : WarmJob) : Prop where
  assets : ∀ staging, job.assetStaging = some staging →
    staging = assetStagingRegion job.jobId
  cleaning : ∀ stagings, job.phase = .cleaning stagings →
    ∀ staging ∈ stagings, job.Stages staging
  fails : job.phase.isCleaning = true → job.finalState ≠ .done

namespace WarmJob

variable {job moved : WarmJob}

theorem storage_congr (spec : moved.toRunSpec = job.toRunSpec) :
    moved.storage = job.storage := by
  unfold storage
  rw [spec]

theorem Own.kept (own : job.Own) (spec : moved.toRunSpec = job.toRunSpec)
    (assets : moved.assetStaging = job.assetStaging)
    (phase : moved.phase.isCleaning = false) : moved.Own where
  assets staging staged := by
    rw [spec]
    exact own.assets staging (assets.symm.trans staged)
  cleaning stagings cleaning := by
    rw [cleaning] at phase
    cases phase
  fails cleaning := by
    rw [phase] at cleaning
    cases cleaning

theorem Own.enter (own : job.Own) {phase : RunPhase}
    (calm : phase.isCleaning = false) : (job.enter phase).Own :=
  own.kept rfl rfl calm

theorem Resume.calm (resume : Resume) : resume.phase.isCleaning = false := by
  cases resume <;> rfl

/-- The replacements of a job take its staging regions. -/
theorem Own.stages (own : job.Own) {replacement : String × String}
    (member : replacement ∈ job.replacements) :
    job.Stages replacement.1 ∧
      (job.regionId = some replacement.2 ∨
        replacement.2 = basemapAssetsRegionId) := by
  rcases List.mem_append.mp member with tiles | assets
  · split at tiles
    · next staging target stored named =>
      cases List.mem_singleton.mp tiles
      exact ⟨.inl stored, .inl named⟩
    · cases tiles
  · obtain ⟨staging, staged, rfl⟩ := List.mem_map.mp assets
    exact ⟨.inr (own.assets staging (Option.mem_toList.mp staged)),
      .inr rfl⟩

theorem Own.conclude (own : job.Own) : job.conclude.Own := by
  unfold WarmJob.conclude
  split
  · exact own.enter rfl
  · next fails =>
    refine ⟨own.assets, ?_, fun _ => fails⟩
    rintro stagings ⟨⟩ staging member
    obtain ⟨replacement, replaces, rfl⟩ := List.mem_map.mp member
    exact (own.stages replaces).1

theorem Own.error (own : job.Own) :
    WarmJob.Own { job with finalState := .error } :=
  ⟨own.assets, own.cleaning, fun _ done => WarmState.noConfusion done⟩

theorem Own.checkErrors (own : job.Own) : job.checkErrors.Own := by
  unfold WarmJob.checkErrors
  split
  · exact own.error
  · exact own

theorem Own.checkComplete (own : job.Own) : job.checkComplete.Own := by
  unfold WarmJob.checkComplete
  split
  · exact own.error
  · exact own

theorem Own.checkGeneration (own : job.Own) :
    (job.checkGeneration service).Own := by
  unfold WarmJob.checkGeneration
  split
  · exact own.error
  · exact own

theorem Own.accumulate (own : job.Own) (resume : Resume)
    (fetched : Fetched) : (job.accumulate service resume fetched).Own := by
  cases fetched with
  | tile row | negative row =>
      simp only [WarmJob.accumulate]
      split
      · exact own.kept rfl rfl rfl
      · exact own.kept rfl rfl (Resume.calm resume)
  | skipped | error => exact own.kept rfl rfl (Resume.calm resume)
  | capped | cancelled => exact own.kept rfl rfl rfl

theorem Own.drained (own : job.Own) (result : Option Fetched) :
    (job.drained service result).Own := by
  cases result with
  | some fetched => exact own.accumulate .draining fetched
  | none => exact own.kept rfl rfl rfl

theorem Own.joinedTask (own : job.Own) (result : Option Fetched) :
    (job.joinedTask service result).Own := by
  cases result with
  | some fetched =>
      simp only [WarmJob.joinedTask]
      split
      · exact own.accumulate .joining fetched
      · exact own.enter rfl
  | none => exact own.kept rfl rfl rfl

theorem Own.flushed (own : job.Own) (resume : Resume)
    (outcome : PutManyOutcome) : (job.flushed resume outcome).Own := by
  simp only [WarmJob.flushed]
  split
  · cases resume with
    | counting => exact own.kept rfl rfl rfl
    | draining | joining => exact own.kept rfl rfl rfl
  · exact own.kept rfl rfl (Resume.calm resume)

theorem Own.assetsStopped (own : job.Own) (reason : AssetStop) :
    (job.assetsStopped reason).Own := by
  unfold WarmJob.assetsStopped
  split
  · exact own.kept rfl rfl rfl
  · cases reason <;> exact own.kept rfl rfl rfl

end WarmJob

open WarmJob in
theorem WarmJob.Own.step {job moved : WarmJob} {event : Event}
    {effect : Effect} (own : job.Own)
    (stepped : job.step env service event = some (moved, effect)) :
    moved.Own := by
  simp only [WarmJob.step] at stepped
  split at stepped
  -- The branches which write neither of the two.
  all_goals try solve
    | (repeat' split at stepped) <;> first
        | contradiction
        | (cases stepped; exact own.kept rfl rfl rfl)
  · -- A finished task while tiles are enumerated.
    next id _ =>
    split at stepped
    · obtain ⟨result, _, same⟩ := Option.map_eq_some_iff.mp stepped
      cases same
      have before : (job.withoutTask id).Own :=
        ⟨own.assets, own.cleaning, own.fails⟩
      exact before.drained result
    · contradiction
  · -- A flush.
    cases stepped
    exact own.flushed _ _
  · -- A flush which fails.
    cases stepped
    exact own.kept rfl rfl (Resume.calm _)
  · -- A finished task after the enumeration.
    next id _ =>
    split at stepped
    · obtain ⟨result, _, same⟩ := Option.map_eq_some_iff.mp stepped
      cases same
      have before : (job.withoutTask id).Own :=
        ⟨own.assets, own.cleaning, own.fails⟩
      exact before.joinedTask result
    · contradiction
  · -- The tail of the batch.
    split at stepped <;> cases stepped
    · exact own.checkErrors.kept rfl rfl rfl
    · exact own.checkErrors.enter rfl
  · -- The counters.
    have checked :
        (job.checkErrors.checkComplete.checkGeneration service).Own :=
      own.checkErrors.checkComplete.checkGeneration
    split at stepped <;> cases stepped
    · exact checked.enter rfl
    · exact checked.enter rfl
  · -- The assets.
    obtain ⟨⟨progress, _⟩, _, same⟩ := Option.map_eq_some_iff.mp stepped
    cases same
    cases progress with
    | going stage => exact own.enter rfl
    | staged =>
        refine ⟨?_, fun _ cleaning => RunPhase.noConfusion cleaning,
          fun cleaning => Bool.noConfusion cleaning⟩
        rintro staging ⟨⟩
        rfl
    | stopped reason => exact own.assetsStopped reason
  · -- Whether anything is replaced.
    split at stepped <;> cases stepped
    · exact own.checkGeneration.enter rfl
    · exact own.checkGeneration.conclude
  · -- The last check of the generation.
    split at stepped <;> cases stepped
    · exact own.checkGeneration.enter rfl
    · exact own.checkGeneration.enter rfl
  · cases stepped
    exact own.conclude
  · -- The cleanup of one staging region.
    next cleaning =>
    cases stepped
    refine ⟨own.assets, ?_, fun _ => own.fails (by rw [cleaning]; rfl)⟩
    rintro stagings ⟨⟩ staging member
    exact own.cleaning _ cleaning staging (List.mem_cons_of_mem _ member)
  · next cleaning =>
    cases stepped
    refine ⟨own.assets, ?_, fun _ => own.fails (by rw [cleaning]; rfl)⟩
    rintro stagings ⟨⟩ staging member
    exact own.cleaning _ cleaning staging (List.mem_cons_of_mem _ member)

/-! ## The names in use -/

/-- What a party calls a region. -/
def Worker.NamedIn (service : Service Document) : Worker → Prop
  | .tile task => ∃ job, service.warmJobs task.order = some job ∧
      task.storage = job.storage
  | .asset task => ∃ jobId, task.region = assetStagingRegion jobId
  | .deletion pending => validRegionId pending.regionId = true
  | .start pending => pending.phase ≠ .waiting →
      pending.request.regionId.all validRegionId = true
  | .live _ => True

/-- Every name belongs to the party which the service has issued it to. -/
structure Named (service : Service Document) : Prop where
  bootId : service.bootId.toList.length = 32
  past : ∀ bootId ∈ service.pastBootIds, bootId.toList.length = 32
  fresh : service.bootId ∉ service.pastBootIds
  order : ∀ order job, service.warmJobs order = some job →
    order < service.warmSeq ∧ job.order = order ∧
      job.jobId = warmJobId service.bootId order
  own : ∀ order job, service.warmJobs order = some job → job.Own
  region : ∀ order job, service.warmJobs order = some job →
    job.regionId.all validRegionId = true
  worker : ∀ id worker, service.workers id = some worker →
    worker.NamedIn service

section Parties

variable {order : Nat} {job : WarmJob}

/-- A step of the driver keeps what names the job. -/
theorem WarmJob.step_spec {moved : WarmJob} {event : Event} {effect : Effect}
    (stepped : job.step env service event = some (moved, effect)) :
    moved.toRunSpec = job.toRunSpec ∧ moved.order = job.order := by
  cases WarmJob.step_advances stepped with
  | goes working follows driven => exact ⟨follows.spec, follows.order⟩
  | returns working ended release =>
      subst ended
      exact ⟨rfl, rfl⟩

/-- What the driver has expanded stays expanded. -/
theorem WarmJob.step_expanded {moved : WarmJob} {event : Event}
    {effect : Effect}
    (stepped : job.step env service event = some (moved, effect)) :
    ∃ more, moved.expanded = job.expanded ++ more := by
  have same : ∀ {other : WarmJob}, other.expanded = job.expanded →
      ∃ more, other.expanded = job.expanded ++ more :=
    fun expanded => ⟨[], expanded.trans (List.append_nil _).symm⟩
  cases WarmJob.step_loads stepped with
  | passes passes aside still => exact passes.expanded
  | enumerates gating expanded => exact same expanded
  | spawns => exact same rfl
  | collects loading member found finished expanded => exact same expanded
  | stores flushing expanded => exact same expanded
  | loses flushing expanded => exact same expanded

/-- A job which is there after a step has its name and its region from the job
before it, unless the step has registered it. -/
theorem job_before (stepped : step env service label = some next)
    (found : next.warmJobs order = some job) :
    (∃ earlier, service.warmJobs order = some earlier ∧
      job.toRunSpec = earlier.toRunSpec ∧ job.order = earlier.order) ∨
    (∃ id start holder resolved total,
      service.workers id = some (.start start) ∧
      start.phase = .registering holder resolved total ∧
      order = service.warmSeq ∧ next.warmSeq = service.warmSeq + 1 ∧
      job = start.request.job service resolved total) := by
  cases job_origin stepped found with
  | flagged cancel others earlier => exact .inl ⟨_, earlier, rfl, rfl⟩
  | moves earlier advanced =>
      obtain ⟨spec, order⟩ := WarmJob.step_spec advanced
      exact .inl ⟨_, earlier, spec, order⟩
  | registered present registering room seq =>
      exact .inr ⟨_, _, _, _, _, present, registering, rfl, seq, rfl⟩

/-- The same job, with what the driver has expanded since. -/
structure WarmJob.Extends (job later : WarmJob) : Prop where
  spec : later.toRunSpec = job.toRunSpec
  expanded : ∃ more, later.expanded = job.expanded ++ more

theorem WarmJob.extends_of_same {later : WarmJob}
    (spec : later.toRunSpec = job.toRunSpec)
    (expanded : later.expanded = job.expanded) : job.Extends later :=
  ⟨spec, [], expanded.trans (List.append_nil _).symm⟩

/-- The parties of the registry but for a new job. -/
theorem Performed.job_after {effect : Effect}
    (performed : Performed service effect next)
    (below : order < service.warmSeq)
    (found : service.warmJobs order = some job) :
    ∃ later, next.warmJobs order = some later ∧ job.Extends later := by
  rw [performed.warmJobs]
  cases effect with
  | register holder registered =>
      refine ⟨job, ?_, WarmJob.extends_of_same rfl rfl⟩
      exact (Function.update_of_ne (Nat.ne_of_lt below) _ _).trans found
  | cancelRegion regionId =>
      refine ⟨_, congrArg (Option.map _) found, ?_⟩
      dsimp only
      split
      · exact WarmJob.extends_of_same rfl rfl
      · exact WarmJob.extends_of_same rfl rfl
  | _ => exact ⟨job, found, WarmJob.extends_of_same rfl rfl⟩

/-- A job stays in the registry while the process runs. -/
theorem job_after (stepped : step env service label = some next)
    (running : label.isBoot = false) (named : Named service)
    (found : service.warmJobs order = some job) :
    ∃ later, next.warmJobs order = some later ∧ job.Extends later := by
  cases label with
  | config label =>
      simp only [step] at stepped
      split at stepped
      · obtain ⟨app, _, rfl⟩ := Option.map_eq_some_iff.mp stepped
        exact ⟨job, found, WarmJob.extends_of_same rfl rfl⟩
      · contradiction
  | boot deferred evicted bootId => cases running
  | drive driven event =>
      obtain ⟨earlier, present, ⟨moved, effect⟩, advanced, performed⟩ :=
        drive_eq_some.mp stepped
      rw [drive_jobs advanced (performed_of_perform performed)]
      by_cases own : order = driven
      · subst own
        obtain rfl : job = earlier := Option.some.inj (found.symm.trans present)
        exact ⟨moved, Function.update_self _ _ _,
          (WarmJob.step_spec advanced).1, WarmJob.step_expanded advanced⟩
      · exact ⟨job, (Function.update_of_ne own _ _).trans found,
          WarmJob.extends_of_same rfl rfl⟩
  | work id event =>
      obtain ⟨worker, _, ⟨moved, effect⟩, _, performed⟩ :=
        work_eq_some.mp stepped
      exact (performed_of_perform performed).job_after
        (named.order order job found).1 found
  | request id request =>
      simp only [step] at stepped
      split at stepped
      · contradiction
      · obtain ⟨worker, _, rfl⟩ := Option.map_eq_some_iff.mp stepped
        exact ⟨job, found, WarmJob.extends_of_same rfl rfl⟩
  | cancel cancelled =>
      cases stepped
      by_cases own : order = cancelled
      · subst own
        refine ⟨{ job with cancel := true }, ?_,
          WarmJob.extends_of_same rfl rfl⟩
        refine (Function.update_self _ _ _).trans ?_
        rw [found]
        rfl
      · exact ⟨job, (Function.update_of_ne own _ _).trans found,
          WarmJob.extends_of_same rfl rfl⟩
  | shutdown =>
      cases stepped
      exact ⟨_, congrArg (Option.map _) found,
        WarmJob.extends_of_same rfl rfl⟩
  | background op =>
      simp only [step] at stepped
      split at stepped
      · cases stepped
        exact ⟨job, found, WarmJob.extends_of_same rfl rfl⟩
      · contradiction

/-- A tile task after a step: it was there, it has taken the step, or the
driver of its job has spawned it. -/
theorem tile_origin {id : Nat} {task : TileTask}
    (stepped : step env service label = some next)
    (found : next.workers id = some (.tile task)) :
    service.workers id = some (.tile task) ∨
    (∃ event earlier effect, label = .work id event ∧
      service.workers id = some (.tile earlier) ∧
      earlier.step env service event = some (task, effect)) ∨
    (∃ order event job moved, label = .drive order event ∧
      service.warmJobs order = some job ∧
      job.step env service event = some (moved, .spawn id (.tile task)) ∧
      service.workers id = none) := by
  cases worker_origin stepped found with
  | stays present => exact .inl present
  | moves present advanced =>
      rename_i event earlier effect
      refine .inr (.inl ⟨event, ?_⟩)
      cases earlier with
      | tile before =>
          obtain ⟨⟨_, _⟩, moved, same⟩ := Option.map_eq_some_iff.mp advanced
          cases same
          exact ⟨before, _, rfl, present, moved⟩
      | asset before =>
          obtain ⟨⟨_, _⟩, _, same⟩ := Option.map_eq_some_iff.mp advanced
          cases same
      | live before | deletion before | start before =>
          obtain ⟨⟨_, _⟩, _, same⟩ := Option.map_eq_some_iff.mp advanced
          simp at same
  | spawned present advanced free =>
      exact .inr (.inr ⟨_, _, _, _, rfl, present, advanced, free⟩)
  | requested asked =>
      rename_i request
      cases request with
      | warm request => cases asked
      | asset request => simp [Request.worker] at asked
      | tile key | delete regionId =>
          simp only [Request.worker] at asked
          split at asked <;> cases asked

theorem Performed.worker_after {effect : Effect} {id : Nat} {worker : Worker}
    (performed : Performed service effect next)
    (found : service.workers id = some worker) :
    next.workers id = some worker ∨ effect = .take id := by
  rw [performed.workers]
  cases effect with
  | spawn other spawned =>
      by_cases same : id = other
      · subst same
        cases (performed.freshTask _ _ rfl).symm.trans found
      · exact .inl ((Function.update_of_ne same _ _).trans found)
  | take other =>
      by_cases same : id = other
      · exact .inr (same ▸ rfl)
      · exact .inl ((Function.update_of_ne same _ _).trans found)
  | _ => exact .inl found

/-- What a task never changes, in a state after. -/
structure TileTask.Goes (task later : TileTask) : Prop where
  order : later.order = task.order
  key : later.key = task.key
  storage : later.storage = task.storage

/-- A tile task is there until a driver takes it. -/
theorem tile_after {id : Nat} {task : TileTask}
    (stepped : step env service label = some next)
    (running : label.isBoot = false)
    (found : service.workers id = some (.tile task)) :
    (∃ later, next.workers id = some (.tile later) ∧ task.Goes later) ∨
    ∃ order event job moved, label = .drive order event ∧
      service.warmJobs order = some job ∧
      job.step env service event = some (moved, .take id) := by
  have still : ∀ {other : Service Document}, other.workers = service.workers →
      ∃ later, other.workers id = some (.tile later) ∧ task.Goes later :=
    fun same => ⟨task, same ▸ found, rfl, rfl, rfl⟩
  cases label with
  | config label =>
      simp only [step] at stepped
      split at stepped
      · obtain ⟨app, _, rfl⟩ := Option.map_eq_some_iff.mp stepped
        exact .inl (still rfl)
      · contradiction
  | boot deferred evicted bootId => cases running
  | drive order event =>
      obtain ⟨job, present, ⟨moved, effect⟩, advanced, performed⟩ :=
        drive_eq_some.mp stepped
      rcases (performed_of_perform performed).worker_after found with
        after | rfl
      · exact .inl ⟨task, after, rfl, rfl, rfl⟩
      · exact .inr ⟨order, event, job, moved, rfl, present, advanced⟩
  | work party event =>
      obtain ⟨worker, present, ⟨moved, effect⟩, advanced, performed⟩ :=
        work_eq_some.mp stepped
      have untaken : effect ≠ .take id := by
        rintro rfl
        rcases Worker.step_opens advanced with plain | ⟨_, _, opens⟩
        · cases plain
        · cases opens
      by_cases own : id = party
      · subst own
        obtain rfl := Option.some.inj (found.symm.trans present)
        obtain ⟨⟨later, _⟩, going, same⟩ :=
          Option.map_eq_some_iff.mp advanced
        cases same
        obtain ⟨order, _, key, _, storage⟩ := TileTask.step_keeps going
        have after := ((performed_of_perform performed).worker_after
          (Function.update_self _ _ _)).resolve_right untaken
        exact .inl ⟨later, after, order, key, storage⟩
      · have after := ((performed_of_perform performed).worker_after
          ((Function.update_of_ne own _ _).trans found)).resolve_right untaken
        exact .inl ⟨task, after, rfl, rfl, rfl⟩
  | request party request =>
      simp only [step] at stepped
      split at stepped
      · contradiction
      · next free =>
        obtain ⟨worker, _, rfl⟩ := Option.map_eq_some_iff.mp stepped
        have other : id ≠ party := by
          rintro rfl
          exact free (found ▸ rfl)
        exact .inl ⟨task, (Function.update_of_ne other _ _).trans found, rfl,
          rfl, rfl⟩
  | cancel order =>
      cases stepped
      exact .inl (still rfl)
  | shutdown =>
      cases stepped
      exact .inl (still rfl)
  | background op =>
      simp only [step] at stepped
      split at stepped
      · cases stepped
        exact .inl (still rfl)
      · contradiction

/-- What a driver spawns bears the names of its job. -/
theorem WarmJob.step_spawn {moved : WarmJob} {event : Event} {id : Nat}
    {worker : Worker}
    (stepped : job.step env service event = some (moved, .spawn id worker)) :
    (∃ task, worker = .tile task ∧ task.order = job.order ∧
      task.storage = job.storage ∧ task.phase = .pinning false ∧
      (task.source, task.key) ∈ job.remaining) ∨
    (∃ task, worker = .asset task ∧
      task.region = assetStagingRegion job.jobId ∧
      task.phase = .starting) := by
  simp only [WarmJob.step] at stepped
  split at stepped
  all_goals try solve | (repeat' split at stepped) <;> simp at stepped
  · split at stepped
    · next yields =>
      cases stepped
      exact .inl ⟨_, rfl, rfl, rfl, rfl, yields ▸ List.mem_cons_self⟩
    · contradiction
  · obtain ⟨⟨progress, _⟩, staged, same⟩ := Option.map_eq_some_iff.mp stepped
    cases same
    simp only [AssetStage.step] at staged
    split at staged
    all_goals try solve | (repeat' split at staged) <;> simp at staged
    split at staged
    · cases staged
      exact .inr ⟨_, rfl, rfl, rfl⟩
    · contradiction

theorem Worker.NamedIn.step {worker moved : Worker} {event : Event}
    {effect : Effect} (named : worker.NamedIn service)
    (stepped : worker.step env service event = some (some moved, effect)) :
    moved.NamedIn service := by
  cases worker with
  | tile task =>
      obtain ⟨⟨after, _⟩, advanced, same⟩ :=
        Option.map_eq_some_iff.mp stepped
      cases same
      obtain ⟨order, _, _, _, storage⟩ := TileTask.step_keeps advanced
      obtain ⟨job, found, stored⟩ := named
      exact ⟨job, order ▸ found, storage.trans stored⟩
  | asset task =>
      obtain ⟨⟨after, _⟩, advanced, same⟩ :=
        Option.map_eq_some_iff.mp stepped
      cases same
      obtain ⟨jobId, region⟩ := named
      exact ⟨jobId, (AssetTask.step_keeps advanced).2.trans region⟩
  | live fetch =>
      obtain ⟨⟨after, _⟩, _, same⟩ := Option.map_eq_some_iff.mp stepped
      obtain ⟨fetch, _, rfl⟩ :=
        Option.map_eq_some_iff.mp (congrArg Prod.fst same)
      trivial
  | deletion pending =>
      obtain ⟨⟨after, _⟩, advanced, same⟩ :=
        Option.map_eq_some_iff.mp stepped
      obtain ⟨deletion, going, rfl⟩ :=
        Option.map_eq_some_iff.mp (congrArg Prod.fst same)
      dsimp only at going
      subst going
      change validRegionId deletion.regionId = true
      rw [Deletion.step_keeps advanced]
      exact named
  | start pending =>
      obtain ⟨⟨after, _⟩, advanced, same⟩ :=
        Option.map_eq_some_iff.mp stepped
      obtain ⟨start, going, rfl⟩ :=
        Option.map_eq_some_iff.mp (congrArg Prod.fst same)
      dsimp only at going
      subst going
      obtain ⟨request, accepted⟩ := Start.step_keeps advanced
      intro _
      rw [request]
      exact accepted.elim named id

theorem Request.named {request : Request} {worker : Worker}
    (asked : request.worker service = some worker) :
    worker.NamedIn service := by
  cases request with
  | tile key =>
      simp only [Request.worker] at asked
      split at asked <;> cases asked
      trivial
  | asset request =>
      obtain ⟨found, _, rfl⟩ := Option.map_eq_some_iff.mp asked
      trivial
  | delete regionId =>
      simp only [Request.worker] at asked
      split at asked
      · next valid =>
        cases asked
        exact (Bool.and_eq_true_iff.mp valid).1
      · contradiction
  | warm request =>
      cases asked
      exact fun waiting => absurd rfl waiting

/-- The names of the parties while the process runs. -/
theorem Named.continues (named : Named service)
    (stepped : step env service label = some next)
    (goes : Continues service next) (running : label.isBoot = false) :
    Named next where
  bootId := by rw [goes.bootId]; exact named.bootId
  past := by rw [goes.pastBootIds]; exact named.past
  fresh := by rw [goes.bootId, goes.pastBootIds]; exact named.fresh
  order order job found := by
    rw [goes.bootId]
    rcases job_before stepped found with ⟨earlier, present, spec, same⟩ |
      ⟨_, start, _, resolved, total, _, _, rfl, seq, rfl⟩
    · obtain ⟨below, own, jobId⟩ := named.order order earlier present
      exact ⟨Nat.lt_of_lt_of_le below goes.warmSeq, same.trans own,
        (congrArg RunSpec.jobId spec).trans jobId⟩
    · exact ⟨by omega, rfl, rfl⟩
  own order job found := by
    cases job_origin stepped found with
    | flagged cancel others earlier =>
        have own := named.own order _ earlier
        exact ⟨own.assets, own.cleaning, own.fails⟩
    | moves earlier advanced => exact (named.own order _ earlier).step advanced
    | registered _ _ _ _ =>
        refine ⟨?_, ?_, fun cleaning => Bool.noConfusion cleaning⟩
        · rintro _ ⟨⟩
        · rintro _ ⟨⟩
  region order job found := by
    rcases job_before stepped found with ⟨earlier, present, spec, _⟩ |
      ⟨id, start, _, resolved, total, present, registering, _, _, rfl⟩
    · rw [spec]
      exact named.region order earlier present
    · have accepted : Worker.NamedIn service (.start start) :=
        named.worker id _ present
      exact accepted (by simp [registering])
  worker id worker found := by
    have kept : worker.NamedIn service → worker.NamedIn next := by
      cases worker with
      | tile task =>
          rintro ⟨job, present, storage⟩
          obtain ⟨later, after, grown⟩ :=
            job_after stepped running named present
          exact ⟨later, after, storage.trans
            (WarmJob.storage_congr grown.spec).symm⟩
      | _ => exact fun before => before
    apply kept
    cases worker_origin stepped found with
    | stays present => exact named.worker id worker present
    | moves present advanced => exact (named.worker id _ present).step advanced
    | spawned present advanced free =>
        rename_i order event job moved
        rcases WarmJob.step_spawn advanced with
          ⟨task, rfl, taskOrder, storage, _⟩ | ⟨task, rfl, region, _⟩
        · refine ⟨job, ?_, storage⟩
          rw [taskOrder, (named.order order job present).2.1]
          exact present
        · exact ⟨job.jobId, region⟩
    | requested asked => exact Request.named asked

theorem Named.booted (named : Named service) {bootId : String}
    (fresh : freshBootId service bootId = true) (deferred evicted : Bool) :
    Named (service.booted env deferred evicted bootId) := by
  simp only [freshBootId, Bool.and_eq_true, decide_eq_true_eq,
    bne_iff_ne, Bool.not_eq_true', List.contains_eq_mem,
    decide_eq_false_iff_not] at fresh
  obtain ⟨⟨length, different⟩, unused⟩ := fresh
  refine ⟨length, ?_, ?_, ?_, ?_, ?_, ?_⟩
  · intro earlier member
    rcases List.mem_cons.mp member with rfl | older
    · exact named.bootId
    · exact named.past earlier older
  · exact List.not_mem_cons_of_ne_of_not_mem different unused
  all_goals exact fun _ _ found => by cases found

theorem Named.step (named : Named service)
    (stepped : step env service label = some next) : Named next := by
  rcases continues_or_boot stepped with
    ⟨goes, running⟩ | ⟨deferred, evicted, bootId, _, fresh, rfl⟩
  · exact named.continues stepped goes running
  · exact named.booted fresh deferred evicted

end Parties

/-! ## Memberships of staging regions -/

section Memberships

variable {order : Nat} {job : WarmJob} {staging : String} {key : TileKey}
  {op : CacheOp}

theorem Named.storage (named : Named service)
    (found : service.warmJobs order = some job)
    (stored : job.storage = some staging) :
    ∃ target, staging =
      stagingRegion target (warmJobId service.bootId order) := by
  obtain ⟨target, _, same⟩ := WarmJob.storage_eq_some.mp stored
  exact ⟨target, by rw [← same, (named.order order job found).2.2]⟩

theorem Named.storage_inj (named : Named service) {other : Nat}
    {otherJob : WarmJob} (found : service.warmJobs order = some job)
    (otherFound : service.warmJobs other = some otherJob)
    (stored : job.storage = some staging)
    (otherStored : otherJob.storage = some staging) : other = order := by
  obtain ⟨target, same⟩ := named.storage found stored
  obtain ⟨otherTarget, otherSame⟩ := named.storage otherFound otherStored
  have jobIds := stagingRegion_inj rfl rfl (same.symm.trans otherSame)
  exact (warmJobId_inj rfl jobIds).2.symm

theorem Named.storage_ne_assets (named : Named service)
    (found : service.warmJobs order = some job)
    (stored : job.storage = some staging) (jobId : String) :
    staging ≠ assetStagingRegion jobId := by
  obtain ⟨target, rfl⟩ := named.storage found stored
  exact stagingRegion_ne_assets rfl

theorem Named.target (named : Named service)
    (found : service.warmJobs order = some job) {replacement : String × String}
    (member : replacement ∈ job.replacements) :
    startsWith replacement.2 stagingRegionPrefix = false := by
  rcases ((named.own order job found).stages member).2 with target | assets
  · have valid := named.region order job found
    rw [target] at valid
    exact startsWith_of_validRegionId (by simpa using valid)
  · rw [assets]
    exact startsWith_basemapAssets

/-- Only the flushes and the tile tasks of a job join tiles to a staging
region which is not one for assets. -/
theorem Issues.joins_staging (named : Named service)
    (issues : Issues env service label op)
    (lead : startsWith staging stagingRegionPrefix = true)
    (tiles : ∀ jobId, staging ≠ assetStagingRegion jobId)
    (joins : op.mayJoin staging key) :
    ∃ order job, service.warmJobs order = some job ∧
      job.storage = some staging ∧
      ((∃ rows budget cap resume, job.phase = .flushing rows budget cap resume ∧
        ∃ row ∈ rows, row.key = key) ∨
      ∃ id task, service.workers id = some (.tile task) ∧
        task.order = order ∧ task.key = key) := by
  cases issues with
  | enforce => exact joins.elim
  | background op allowed =>
      cases op <;> first | exact joins.elim | cases allowed
  | work found calls =>
      cases calls with
      | tilePin disk now calling =>
          rename_i id task recheck budgets
          obtain ⟨job, present, storage⟩ := named.worker id _ found
          exact ⟨task.order, job, present, storage.symm.trans joins.1,
            .inr ⟨id, task, found, rfl, joins.2.symm⟩⟩
      | assetPin disk now calling =>
          obtain ⟨jobId, region⟩ := named.worker _ _ found
          exact absurd ((Option.some.inj joins.1).symm.trans region)
            (tiles jobId)
      | put | evict | delete => exact joins.elim
  | drive found calls =>
      rename_i order job event
      cases calls with
      | flush disk now flushing =>
          exact ⟨order, job, found, joins.1,
            .inl ⟨_, _, _, _, flushing, joins.2⟩⟩
      | assetFlush disk now assets flushing =>
          exact absurd (Option.some.inj joins.1).symm (tiles job.jobId)
      | promote disk now promoting =>
          obtain ⟨replacement, member, same⟩ := List.mem_map.mp joins
          have outside := named.target found member
          rw [same, lead] at outside
          cases outside
      | assetClean | clean => exact joins.elim

/-- Only the promotion and the cleanup of a job take memberships away from its
staging region. -/
theorem Issues.touches_staging (named : Named service)
    (issues : Issues env service label op)
    (present : service.warmJobs order = some job)
    (stored : job.storage = some staging)
    (touches : op.touchesRegion staging = true) :
    ∃ disk now, label = .drive order (.call disk now) ∧
      (job.phase.isCleaning = true ∨ ∃ holder cap regions position,
        job.phase = .promoting holder cap regions position) := by
  have lead : startsWith staging stagingRegionPrefix = true := by
    obtain ⟨target, rfl⟩ := named.storage present stored
    exact startsWith_stagingRegion _ _
  have tiles := named.storage_ne_assets present stored
  cases issues with
  | enforce => cases touches
  | background op allowed =>
      cases op <;> first | cases touches | cases allowed
  | work found calls =>
      cases calls with
      | tilePin | assetPin | put | evict => cases touches
      | delete disk now deleting =>
          have valid : validRegionId _ = true := named.worker _ _ found
          have outside := startsWith_of_validRegionId valid
          rw [beq_iff_eq.mp touches, lead] at outside
          cases outside
  | drive found calls =>
      rename_i other otherJob event
      have own : otherJob.Stages staging → other = order := by
        rintro (same | assets)
        · exact named.storage_inj present found stored same
        · exact absurd assets (tiles _)
      cases calls with
      | flush | assetFlush => cases touches
      | assetClean disk now assets cleaning =>
          exact absurd (beq_iff_eq.mp touches).symm (tiles _)
      | promote disk now promoting =>
          obtain ⟨replacement, member, same⟩ := List.any_eq_true.mp touches
          rcases Bool.or_eq_true_iff.mp same with staged | target
          · have stages := ((named.own other _ found).stages member).1
            rw [beq_iff_eq.mp staged] at stages
            obtain rfl := own stages
            obtain rfl := Option.some.inj (present.symm.trans found)
            exact ⟨_, _, rfl, .inr ⟨_, _, _, _, promoting⟩⟩
          · have outside := named.target found member
            rw [beq_iff_eq.mp target, lead] at outside
            cases outside
      | clean disk now cleaning =>
          have stages := (named.own other _ found).cleaning _ cleaning _
            List.mem_cons_self
          rw [beq_iff_eq.mp touches] at stages
          obtain rfl := own stages
          obtain rfl := Option.some.inj (present.symm.trans found)
          exact ⟨_, _, rfl, .inl (by rw [cleaning]; rfl)⟩

/-- A membership of the staging region of a job after a step. -/
theorem staged_origin (named : Named service)
    (stepped : step env service label = some next)
    (running : label.isBoot = false)
    (present : service.warmJobs order = some job)
    (stored : job.storage = some staging)
    (joined : ⟨staging, key⟩ ∈ next.cache.tables.regionTiles) :
    ⟨staging, key⟩ ∈ service.cache.tables.regionTiles ∨
    (∃ rows budget cap resume, job.phase = .flushing rows budget cap resume ∧
      ∃ row ∈ rows, row.key = key) ∨
    ∃ id task, service.workers id = some (.tile task) ∧
      task.order = order ∧ task.key = key := by
  rcases step_cache stepped with ⟨_, _, _, rfl⟩ | same | ⟨op, issues, same⟩
  · cases running
  · exact .inl (same ▸ joined)
  · rw [same] at joined
    rcases joined_origin joined with before | named'
    · exact .inl before
    · obtain ⟨target, rfl⟩ := named.storage present stored
      obtain ⟨other, otherJob, found, otherStored, source⟩ :=
        issues.joins_staging named (startsWith_stagingRegion _ _)
          (named.storage_ne_assets present stored) named'
      obtain rfl := named.storage_inj present found stored otherStored
      obtain rfl := Option.some.inj (present.symm.trans found)
      exact .inr source

theorem staged_kept (named : Named service)
    (stepped : step env service label = some next)
    (running : label.isBoot = false)
    (present : service.warmJobs order = some job)
    (stored : job.storage = some staging)
    (joined : ⟨staging, key⟩ ∈ service.cache.tables.regionTiles) :
    ⟨staging, key⟩ ∈ next.cache.tables.regionTiles ∨
    ∃ disk now, label = .drive order (.call disk now) ∧
      (job.phase.isCleaning = true ∨ ∃ holder cap regions position,
        job.phase = .promoting holder cap regions position) := by
  rcases step_cache stepped with ⟨_, _, _, rfl⟩ | same | ⟨op, issues, same⟩
  · cases running
  · exact .inl (same ▸ joined)
  · cases touches : op.touchesRegion staging with
    | true => exact .inr (issues.touches_staging named present stored touches)
    | false =>
        rw [same]
        exact .inl (joined_apply touches joined)

end Memberships

/-! ## Every reachable service -/

/-- The names in use and those in the database. -/
structure Staged (service : Service Document) : Prop where
  named : Named service
  /-- No membership bears the name of a job which is still to be started. -/
  issued : ∀ target bootId order key, bootId.toList.length = 32 →
    ⟨stagingRegion target (warmJobId bootId order), key⟩ ∈
      service.cache.tables.regionTiles →
    bootId ∈ service.pastBootIds ∨
      (bootId = service.bootId ∧ order < service.warmSeq)
  linked : service.cache.tables.JoinsPinned

section Reachable

/-- A boot deletes unpinned tiles and abandoned staging regions. -/
theorem booted_performed (deferred evicted : Bool) (bootId : String) :
    ∃ steps, (service.booted env deferred evicted bootId).cache.tables =
        performed service.cache.tables steps ∧
      ∀ step ∈ steps, (∃ drop, step = .deleteUnpinned drop) ∨
        step = .dropRegions fun id => startsWith id stagingRegionPrefix := by
  have opening : ∃ steps,
      (TileCache.opened deferred service.cache.tables).tables =
        performed service.cache.tables steps ∧
      ∀ step ∈ steps,
        step = .dropRegions fun id => startsWith id stagingRegionPrefix := by
    cases deferred with
    | true => exact ⟨[], rfl, by simp⟩
    | false =>
        refine ⟨[.dropRegions fun id => startsWith id stagingRegionPrefix],
          rfl, ?_⟩
        exact fun step member => List.mem_singleton.mp member
  obtain ⟨steps, opened, drops⟩ := opening
  cases evicted with
  | false => exact ⟨steps, opened, fun step member => .inr (drops step member)⟩
  | true =>
      obtain ⟨evictions, tables, kinds⟩ := tables_apply
        (.evictTo env.capBytes)
        (TileCache.opened deferred service.cache.tables)
      refine ⟨steps ++ evictions, ?_, fun step member => ?_⟩
      · rw [performed_append, ← opened]
        exact tables
      · rcases List.mem_append.mp member with dropped | eviction
        · exact .inr (drops step dropped)
        · exact .inl (kinds step eviction)

theorem booted_preserves {motive : Tables → Prop}
    (deletes : ∀ tables drop, motive tables →
      motive (TableStep.apply tables (.deleteUnpinned drop)))
    (drops : ∀ tables, motive tables → motive (TableStep.apply tables
      (.dropRegions fun id => startsWith id stagingRegionPrefix)))
    (deferred evicted : Bool) (bootId : String)
    (holds : motive service.cache.tables) :
    motive (service.booted env deferred evicted bootId).cache.tables := by
  obtain ⟨steps, same, kinds⟩ :=
    @booted_performed _ env service deferred evicted bootId
  rw [same]
  refine performed_preserves (fun tables step member before => ?_) holds
  rcases kinds step member with ⟨drop, rfl⟩ | rfl
  · exact deletes tables drop before
  · exact drops tables before

/-- A step joins tiles to regions of registered jobs only. -/
theorem Staged.issued_after (staged : Staged service)
    (stepped : step env service label = some next)
    (running : label.isBoot = false) {target bootId : String} {order : Nat}
    {key : TileKey} (length : bootId.toList.length = 32)
    (joined : ⟨stagingRegion target (warmJobId bootId order), key⟩ ∈
      next.cache.tables.regionTiles) :
    bootId ∈ service.pastBootIds ∨
      (bootId = service.bootId ∧ order < service.warmSeq) := by
  rcases step_cache stepped with ⟨_, _, _, rfl⟩ | same | ⟨op, issues, same⟩
  · cases running
  · exact staged.issued target bootId order key length (same ▸ joined)
  · rw [same] at joined
    rcases joined_origin joined with before | writes
    · exact staged.issued target bootId order key length before
    · obtain ⟨other, job, found, stored, _⟩ :=
        issues.joins_staging staged.named (startsWith_stagingRegion _ _)
          (fun _ => stagingRegion_ne_assets rfl) writes
      obtain ⟨otherTarget, same⟩ := staged.named.storage found stored
      have jobIds := stagingRegion_inj rfl rfl same
      obtain ⟨boots, orders⟩ := warmJobId_inj
        (length.trans staged.named.bootId.symm) jobIds
      exact .inr ⟨boots, orders ▸ (staged.named.order other job found).1⟩

theorem Staged.step (staged : Staged service)
    (stepped : step env service label = some next) : Staged next := by
  refine ⟨staged.named.step stepped, ?_, ?_⟩
  · intro target bootId order key length joined
    rcases continues_or_boot stepped with
      ⟨goes, running⟩ | ⟨deferred, evicted, other, _, _, rfl⟩
    · rw [goes.bootId, goes.pastBootIds]
      exact (staged.issued_after stepped running length joined).imp_right
        fun issued => ⟨issued.1, Nat.lt_of_lt_of_le issued.2 goes.warmSeq⟩
    · have before : ⟨stagingRegion target (warmJobId bootId order), key⟩ ∈
          service.cache.tables.regionTiles :=
        booted_preserves
          (motive := fun tables => ⟨stagingRegion target
              (warmJobId bootId order), key⟩ ∈ tables.regionTiles →
            ⟨stagingRegion target (warmJobId bootId order), key⟩ ∈
              service.cache.tables.regionTiles)
          (fun _ _ earlier => earlier)
          (fun _ earlier after => earlier (Tables.mem_dropStep.mp after).1)
          deferred evicted other (fun before => before) joined
      rcases staged.issued target bootId order key length before with
        past | ⟨rfl, _⟩
      · exact .inl (List.mem_cons_of_mem _ past)
      · exact .inl List.mem_cons_self
  · rcases step_cache stepped with ⟨deferred, evicted, bootId, rfl⟩ | same |
      ⟨op, _, same⟩
    · simp only [Warm.step] at stepped
      split at stepped
      · cases stepped
        exact booted_preserves (motive := Tables.JoinsPinned)
          (fun _ drop before => before.apply (.deleteUnpinned drop))
          (fun _ before => before.apply (.dropRegions _))
          deferred evicted bootId staged.linked
      · contradiction
    · rw [same]
      exact staged.linked
    · rw [same]
      exact joinsPinned_apply staged.linked op

theorem staged_of_initial (initial : (serviceMachine env).initial service) :
    Staged service := by
  obtain ⟨found, deferred, bootId, linked, unstaged, length, rfl⟩ := initial
  have clean : ∀ entry ∈ (TileCache.opened deferred found).tables.regionTiles,
      entry ∈ found.regionTiles := by
    intro entry member
    cases deferred with
    | true => exact member
    | false => exact (Finset.mem_filter.mp member).1
  refine ⟨⟨length, ?_, List.not_mem_nil, ?_, ?_, ?_, ?_⟩, ?_, ?_⟩
  · exact fun _ member => absurd member List.not_mem_nil
  · exact fun _ _ found => by cases found
  · exact fun _ _ found => by cases found
  · exact fun _ _ found => by cases found
  · exact fun _ _ found => by cases found
  · intro target other order key _ joined
    have outside := unstaged _ (clean _ joined)
    rw [startsWith_stagingRegion] at outside
    cases outside
  · cases deferred with
    | true => exact linked
    | false => exact linked.apply (.dropRegions _)

theorem staged_of_reachable (reached : (serviceMachine env).Reachable service) :
    Staged service := by
  refine reached.invariant (fun _ => staged_of_initial) ?_
  intro state label next staged stepped
  change Warm.step env state label = some next at stepped
  exact staged.step stepped

end Reachable

end ChartLocker.Warm
