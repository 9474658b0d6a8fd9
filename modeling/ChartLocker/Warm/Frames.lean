import ChartLocker.Warm.Machine

/-!
# What a step of the service changes

Every step of a party has one effect on the shared state, and every write of
the cache is one call which some party issues.  `Issues` lists the calls with
the party, its await point and its locals: the invariants of the cache are
proved from this list.
-/

namespace ChartLocker.Warm

open Library Cache Catalog

variable {Document : Type}

/-! ## Effects -/

namespace Effect

def onCache (effect : Effect) (cache : TileCache) : TileCache :=
  match effect with
  | .call op => op.apply cache
  | _ => cache

def onWorkers (effect : Effect) (workers : Nat → Option Worker) :
    Nat → Option Worker :=
  match effect with
  | .spawn id worker => Function.update workers id (some worker)
  | .take id => Function.update workers id none
  | _ => workers

def onJobs (effect : Effect) (warmSeq : Nat)
    (warmJobs : Nat → Option WarmJob) : Nat → Option WarmJob :=
  match effect with
  | .cancelRegion regionId => fun order => (warmJobs order).map fun job =>
      if job.regionId = some regionId ∧ job.state = .running then
        { job with cancel := true }
      else
        job
  | .register _ job => Function.update warmJobs warmSeq (some job)
  | _ => warmJobs

def onSeq (effect : Effect) (warmSeq : Nat) : Nat :=
  match effect with
  | .register _ _ | .refuse _ _ => warmSeq + 1
  | _ => warmSeq

def onRegions (effect : Effect) (regions : List String) : List String :=
  match effect with
  | .reserveRegion region => region :: regions
  | .releaseRegion region | .refuse _ region =>
      region.elim regions fun id => regions.filter (· ≠ id)
  | _ => regions

end Effect

/-- What an effect does to the shared state. -/
structure Performed (service : Service Document) (effect : Effect)
    (next : Service Document) : Prop where
  cache : next.cache = effect.onCache service.cache
  workers : next.workers = effect.onWorkers service.workers
  warmJobs : next.warmJobs = effect.onJobs service.warmSeq service.warmJobs
  warmSeq : next.warmSeq = effect.onSeq service.warmSeq
  regions : next.activeWarmRegions =
    effect.onRegions service.activeWarmRegions
  bootId : next.bootId = service.bootId
  pastBootIds : next.pastBootIds = service.pastBootIds
  freshTask : ∀ id worker, effect = .spawn id worker →
    service.workers id = none

theorem lockConfig_app {service next : Service Document} {holder : Nat}
    (locked : service.lockConfig holder = some next) :
    ∃ app, app.cache = service.cache ∧ next = service.withApp app := by
  obtain ⟨app, held, rfl⟩ := Option.map_eq_some_iff.mp locked
  refine ⟨app, ?_, rfl⟩
  simp only [Config.lockHolder] at held
  split at held
  · cases held
    rfl
  · contradiction

theorem unlockConfig_app {service next : Service Document} {holder : Nat}
    (unlocked : service.unlockConfig holder = some next) :
    ∃ app, app.cache = service.cache ∧ next = service.withApp app := by
  obtain ⟨app, freed, rfl⟩ := Option.map_eq_some_iff.mp unlocked
  refine ⟨app, ?_, rfl⟩
  simp only [Config.unlockHolder] at freed
  split at freed
  · cases freed
    rfl
  · contradiction

theorem performed_of_perform {service next : Service Document}
    {effect : Effect} (performed : service.perform effect = some next) :
    Performed service effect next := by
  cases effect with
  | lockConfig holder =>
      obtain ⟨app, same, rfl⟩ := lockConfig_app performed
      exact ⟨same, rfl, rfl, rfl, rfl, rfl, rfl, by simp⟩
  | unlockConfig holder =>
      obtain ⟨app, same, rfl⟩ := unlockConfig_app performed
      exact ⟨same, rfl, rfl, rfl, rfl, rfl, rfl, by simp⟩
  | register holder job =>
      obtain ⟨unlocked, freed, rfl⟩ := Option.map_eq_some_iff.mp performed
      obtain ⟨app, same, rfl⟩ := unlockConfig_app freed
      exact ⟨same, rfl, rfl, rfl, rfl, rfl, rfl, by simp⟩
  | refuse holder regionId =>
      obtain ⟨unlocked, freed, rfl⟩ := Option.map_eq_some_iff.mp performed
      obtain ⟨app, same, rfl⟩ := unlockConfig_app freed
      exact ⟨same, rfl, rfl, rfl, rfl, rfl, rfl, by simp⟩
  | spawn id worker =>
      simp only [Service.perform] at performed
      split at performed
      · contradiction
      · next admitted =>
        cases performed
        refine ⟨rfl, rfl, rfl, rfl, rfl, rfl, rfl, ?_⟩
        rintro _ _ ⟨⟩
        exact Option.not_isSome_iff_eq_none.mp fun used =>
          admitted (.inr used)
  | lockFlight key =>
      simp only [Service.perform] at performed
      split at performed
      · contradiction
      · cases performed
        exact ⟨rfl, rfl, rfl, rfl, rfl, rfl, rfl, by simp⟩
  | holdAssets =>
      simp only [Service.perform] at performed
      split at performed
      · contradiction
      · cases performed
        exact ⟨rfl, rfl, rfl, rfl, rfl, rfl, rfl, by simp⟩
  | _ =>
      cases performed
      exact ⟨rfl, rfl, rfl, rfl, rfl, rfl, rfl, by simp⟩
/-! ## Calls -/

/-- A step of the configuration writes the cache only to enforce a cap. -/
theorem configStep_cache {env : Config.Environment Document}
    {app next : Config.AppState Document} {label : Config.Label Document}
    (external : externalLabel app label = true)
    (stepped : Config.step env app label = some next) :
    next.cache = app.cache ∨ ∃ cap, next.cache = app.cache.evictTo cap := by
  cases label with
  | runJob id outcome =>
      simp only [Config.step, Config.runJob] at stepped
      split at stepped
      · cases stepped
        next work _ =>
        cases work with
        | enforceCap cap =>
          simp only [Config.perform]
          split
          · exact .inl rfl
          · split
            · exact .inr ⟨cap, rfl⟩
            · exact .inl rfl
            · exact .inr ⟨cap, rfl⟩
        | reconcile signatures => cases outcome <;> exact .inl rfl
        | deleteInvalid sources => cases outcome <;> exact .inl rfl
        | store row => cases outcome <;> exact .inl rfl
      · contradiction
  | lockHolder => contradiction
  | unlockHolder => contradiction
  | cacheCall => contradiction
  | boot => contradiction
  | scrollTtl ttl =>
      left
      cases stepped
      simp only [Config.setScrollTtl]
      split <;> rfl
  | _ =>
      left
      simp only [Config.step, Config.configRequest, Config.configBegin,
        Config.configSources, Config.configReconcile, Config.configResume,
        Config.configInstall, Config.configPublish, Config.learnRequest,
        Config.learnResolve, Config.learnExisting, Config.learnAnswer,
        Config.learnCommit, Config.learnPersist, Config.learnFinish,
        Config.dropTask] at stepped
      repeat' split at stepped
      all_goals first | contradiction | (cases stepped; rfl)


/-- The calls of a task, a live fetch or a deletion. -/
inductive Worker.Calls (env : Environment Document) :
    Worker → Event → CacheOp → Prop where
  | tilePin {task : TileTask} {recheck : Bool} {budgets : PinBudgets}
      (disk : DiskSpace) (now : Int)
      (calling : task.phase = .pinCalling recheck budgets) :
      Calls env (.tile task) (.call disk now)
        (.pinIfFreshCapped task.key now env.freshSecs env.negativeTtlSecs
          budgets task.storage)
  | assetPin {task : AssetTask} {budgets : PinBudgets}
      (disk : DiskSpace) (now : Int)
      (calling : task.phase = .pinCalling budgets) :
      Calls env (.asset task) (.call disk now)
        (.pinIfFreshCapped task.job.key now env.freshSecs
          env.negativeTtlSecs budgets (some task.region))
  | put {fetch : LiveFetch} {tile : CachedTile} {stored : Int}
      {evict : Option Int} (disk : DiskSpace) (now : Int)
      (storing : fetch.phase = .storing tile stored evict) :
      Calls env (.live fetch) (.call disk now)
        (.put disk fetch.key tile false stored)
  | evict {worker : Worker} {event : Event} (cap : Int) :
      Calls env worker event (.evictTo cap)
  | delete {deletion : Deletion} {cap : Int} (disk : DiskSpace) (now : Int)
      (deleting : deletion.phase = .deleting cap) :
      Calls env (.deletion deletion) (.call disk now)
        (.deleteRegion deletion.regionId)

/-- The calls of the driver of a job. -/
inductive WarmJob.Calls (job : WarmJob) : Event → CacheOp → Prop where
  | flush {rows : List WarmRow} {budget cap : Int} {resume : Resume}
      (disk : DiskSpace) (now : Int)
      (flushing : job.phase = .flushing rows budget cap resume) :
      Calls job (.call disk now)
        (.putManyPinned disk rows budget cap job.storage now)
  | assetFlush {stage : AssetStage} {rows : List WarmRow} {cap : Int}
      {resume : AssetResume} (disk : DiskSpace) (now : Int)
      (staging : job.phase = .assets stage)
      (flushing : stage.phase = .flushing rows cap resume) :
      Calls job (.call disk now)
        (.putManyPinned disk rows stage.budget cap
          (some (assetStagingRegion job.jobId)) now)
  | assetClean {stage : AssetStage} {reason : AssetStop}
      (disk : DiskSpace) (now : Int) (staging : job.phase = .assets stage)
      (cleaning : stage.phase = .cleaning reason) :
      Calls job (.call disk now) (.deleteRegion (assetStagingRegion job.jobId))
  | promote {holder : Nat} {cap regions position : Int} (disk : DiskSpace)
      (now : Int)
      (promoting : job.phase = .promoting holder cap regions position) :
      Calls job (.call disk now)
        (.promoteStagedRegions job.replacements (max (regions - position) 0)
          position cap)
  | clean {staging : String} {rest : List String} (disk : DiskSpace)
      (now : Int) (cleaning : job.phase = .cleaning (staging :: rest)) :
      Calls job (.call disk now) (.deleteRegion staging)

/-- The calls which a step issues. -/
inductive Issues (env : Environment Document) (service : Service Document) :
    Label Document → CacheOp → Prop where
  | enforce (label : Config.Label Document) (cap : Int) :
      Issues env service (.config label) (.evictTo cap)
  | background (op : CacheOp) (allowed : backgroundCall op = true) :
      Issues env service (.background op) op
  | work {id : Nat} {worker : Worker} {event : Event} {op : CacheOp}
      (found : service.workers id = some worker)
      (calls : worker.Calls env event op) :
      Issues env service (.work id event) op
  | drive {order : Nat} {job : WarmJob} {event : Event} {op : CacheOp}
      (found : service.warmJobs order = some job)
      (calls : job.Calls event op) :
      Issues env service (.drive order event) op

section Calls

variable {env : Environment Document} {service : Service Document}

theorem drive_eq_some {order : Nat} {event : Event}
    {next : Service Document} :
    step env service (.drive order event) = some next ↔
      ∃ job, service.warmJobs order = some job ∧
        ∃ moved, job.step env service event = some moved ∧
          (service.setJob order (some moved.1)).perform moved.2 =
            some next := by
  simp only [step, Option.bind_eq_some_iff]

theorem work_eq_some {id : Nat} {event : Event} {next : Service Document} :
    step env service (.work id event) = some next ↔
      ∃ worker, service.workers id = some worker ∧
        ∃ moved, worker.step env service event = some moved ∧
          (service.setWorker id moved.1).perform moved.2 = some next := by
  simp only [step, Option.bind_eq_some_iff]

theorem TileTask.calls {task next : TileTask} {event : Event} {op : CacheOp}
    (stepped : task.step env service event = some (next, .call op)) :
    (Worker.tile task).Calls env event op := by
  simp only [TileTask.step] at stepped
  split at stepped
  all_goals try solve | (repeat' split at stepped) <;> simp at stepped
  · next calling =>
    cases stepped
    exact .tilePin _ _ calling

theorem AssetTask.calls {task next : AssetTask} {event : Event}
    {op : CacheOp}
    (stepped : task.step env service event = some (next, .call op)) :
    (Worker.asset task).Calls env event op := by
  simp only [AssetTask.step] at stepped
  split at stepped
  all_goals try solve | (repeat' split at stepped) <;> simp at stepped
  · next calling =>
    cases stepped
    exact .assetPin _ _ calling

theorem LiveFetch.calls {fetch : LiveFetch} {next : Option LiveFetch}
    {event : Event} {op : CacheOp}
    (stepped : fetch.step env service event = some (next, .call op)) :
    (Worker.live fetch).Calls env event op := by
  simp only [LiveFetch.step, LiveFetch.ends, LiveFetch.orEnds] at stepped
  split at stepped
  all_goals try solve | (repeat' split at stepped) <;> simp at stepped
  · next storing =>
    cases stepped
    exact .put _ _ storing
  · cases stepped
    exact .evict _

theorem Deletion.calls {deletion : Deletion} {next : Option Deletion}
    {event : Event} {op : CacheOp}
    (stepped : deletion.step service event = some (next, .call op)) :
    (Worker.deletion deletion).Calls env event op := by
  simp only [Deletion.step] at stepped
  split at stepped
  all_goals try solve | (repeat' split at stepped) <;> simp at stepped
  · next deleting =>
    cases stepped
    exact .delete _ _ deleting
  · cases stepped
    exact .evict _

theorem Start.calls {start : Start} {next : Option Start} {event : Event}
    {op : CacheOp} :
    start.step env service event ≠ some (next, .call op) := by
  intro stepped
  simp only [Start.step] at stepped
  repeat' split at stepped
  all_goals simp at stepped

theorem Worker.calls {worker : Worker} {next : Option Worker} {event : Event}
    {op : CacheOp}
    (stepped : worker.step env service event = some (next, .call op)) :
    worker.Calls env event op := by
  cases worker with
  | tile task =>
      obtain ⟨⟨_, _⟩, moved, same⟩ := Option.map_eq_some_iff.mp stepped
      cases same
      exact TileTask.calls moved
  | asset task =>
      obtain ⟨⟨_, _⟩, moved, same⟩ := Option.map_eq_some_iff.mp stepped
      cases same
      exact AssetTask.calls moved
  | live fetch =>
      obtain ⟨⟨_, _⟩, moved, same⟩ := Option.map_eq_some_iff.mp stepped
      cases same
      exact LiveFetch.calls moved
  | deletion pending =>
      obtain ⟨⟨_, _⟩, moved, same⟩ := Option.map_eq_some_iff.mp stepped
      cases same
      exact Deletion.calls moved
  | start pending =>
      obtain ⟨⟨_, _⟩, moved, same⟩ := Option.map_eq_some_iff.mp stepped
      cases same
      exact absurd moved Start.calls

theorem AssetStage.calls {job : WarmJob} {stage : AssetStage} {event : Event}
    {progress : AssetProgress} {op : CacheOp}
    (staging : job.phase = .assets stage)
    (stepped : stage.step env service job event =
      some (progress, .call op)) :
    job.Calls event op := by
  simp only [AssetStage.step] at stepped
  split at stepped
  all_goals try solve | (repeat' split at stepped) <;> simp at stepped
  · next flushing =>
    cases stepped
    exact .assetFlush _ _ staging flushing
  · next cleaning =>
    cases stepped
    exact .assetClean _ _ staging cleaning

theorem WarmJob.calls {job next : WarmJob} {event : Event} {op : CacheOp}
    (stepped : job.step env service event = some (next, .call op)) :
    job.Calls event op := by
  simp only [WarmJob.step] at stepped
  split at stepped
  all_goals try solve | (repeat' split at stepped) <;> simp at stepped
  · next flushing =>
    cases stepped
    exact .flush _ _ flushing
  · next staging =>
    obtain ⟨⟨_, _⟩, moved, same⟩ := Option.map_eq_some_iff.mp stepped
    cases same
    exact AssetStage.calls staging moved
  · next promoting =>
    cases stepped
    exact .promote _ _ promoting
  · next cleaning =>
    cases stepped
    exact .clean _ _ cleaning

/-- Every write of the cache is a call which some party issues, apart from
the reopening at a boot. -/
theorem step_cache {label : Label Document} {next : Service Document}
    (stepped : step env service label = some next) :
    (∃ deferred evicted bootId, label = .boot deferred evicted bootId) ∨
      next.cache = service.cache ∨
      ∃ op, Issues env service label op ∧
        next.cache = op.apply service.cache := by
  cases label with
  | config label =>
      simp only [step] at stepped
      split at stepped
      · next external =>
        obtain ⟨app, moved, rfl⟩ := Option.map_eq_some_iff.mp stepped
        rcases configStep_cache external moved with same | ⟨cap, same⟩
        · exact .inr (.inl same)
        · exact .inr (.inr ⟨_, .enforce label cap, same⟩)
      · contradiction
  | boot deferred evicted bootId => exact .inl ⟨_, _, _, rfl⟩
  | drive order event =>
      obtain ⟨job, found, ⟨moved, effect⟩, stepped, performed⟩ :=
        drive_eq_some.mp stepped
      have changed := (performed_of_perform performed).cache
      cases effect with
      | call op =>
          exact .inr (.inr ⟨op, .drive found (WarmJob.calls stepped), changed⟩)
      | _ => exact .inr (.inl changed)
  | work id event =>
      obtain ⟨worker, found, ⟨moved, effect⟩, stepped, performed⟩ :=
        work_eq_some.mp stepped
      have changed := (performed_of_perform performed).cache
      cases effect with
      | call op =>
          exact .inr (.inr ⟨op, .work found (Worker.calls stepped), changed⟩)
      | _ => exact .inr (.inl changed)
  | request id request =>
      simp only [step] at stepped
      split at stepped
      · contradiction
      · obtain ⟨worker, _, rfl⟩ := Option.map_eq_some_iff.mp stepped
        exact .inr (.inl rfl)
  | cancel order =>
      cases stepped
      exact .inr (.inl rfl)
  | shutdown =>
      cases stepped
      exact .inr (.inl rfl)
  | background op =>
      simp only [step] at stepped
      split at stepped
      · next allowed =>
        cases stepped
        exact .inr (.inr ⟨op, .background op allowed, rfl⟩)
      · contradiction

end Calls

end ChartLocker.Warm
