import ChartLocker.Cache.Contents
import ChartLocker.Warm.Staging

/-!
# The tiles which the parties carry

A party which has fetched a tile, or has read one from the cache, keeps it in
its record until it writes it under the key which it works on.  A relation
between a key and a tile which holds of the answers to the fetches of that key,
and which ignores the times of a tile, therefore holds of every tile which is
carried or stored.
-/

namespace ChartLocker.Warm

open Library Cache Catalog

variable {Document : Type}

/-- The key whose answer a party waits for. -/
def Worker.awaits : Worker → Option TileKey
  | .tile task =>
      match task.phase with
      | .fetching => some task.key
      | _ => none
  | .asset task =>
      match task.phase with
      | .fetching => some task.job.key
      | _ => none
  | .live fetch =>
      match fetch.phase with
      | .fetching _ => some fetch.key
      | _ => none
  | _ => none

/-- The check which a party makes of a body before it keeps it. -/
def Worker.accepts (env : Environment Document) (response : Response) :
    Worker → Bool
  | .tile _ => acceptableTile env response
  | .asset task => validFetchedAsset env task.job.kind response
  | .live fetch =>
      match fetch.route with
      | .tile => acceptableTile env response
      | .asset kind => validFetchedAsset env kind response
  | _ => false

/-- A relation which holds of the tiles which parties make of the answers they
have got. -/
structure Made (env : Environment Document)
    (answered : Worker → Response → Prop)
    (good : TileKey → CachedTile → Prop) : Prop where
  ageless : Ageless good
  fetched : ∀ worker key response now, answered worker response →
    worker.awaits = some key → response.status = 200 →
      worker.accepts env response = true →
        good key (fetchedTile env response now)
  negative : ∀ (worker : Worker) (key : TileKey) (response : Response)
    (status now : Int), answered worker response →
      worker.awaits = some key →
        response.status = 404 ∨ response.status = 204 →
          status = 404 ∨ status = 204 →
            good key (CachedTile.negative status now)
  renewed : ∀ key tile now, good key tile →
    good key { tile with fetchedAt := now, lastAccess := now }

/-! ## What is carried -/

section Carries

variable (good : TileKey → CachedTile → Prop)

def Fetched.Carries : Fetched → Prop
  | .tile row | .negative row => good row.key row.tile
  | _ => True

def TilePhase.Carries : TilePhase → Prop
  | .returning result | .finished (some result) => result.Carries good
  | _ => True

def AssetPhase.Carries : AssetPhase → Prop
  | .returning (.ok (some row)) | .finished (some (.ok (some row))) =>
      good row.key row.tile
  | _ => True

def LivePhase.Carries (key : TileKey) : LivePhase → Prop
  | .fetching stale => ∀ tile ∈ stale, good key tile
  | .storing tile _ _ => good key tile
  | _ => True

def Worker.Carries : Worker → Prop
  | .tile task => task.phase.Carries good
  | .asset task => task.phase.Carries good
  | .live fetch => fetch.phase.Carries good fetch.key
  | _ => True

def AssetStage.Carries (stage : AssetStage) : Prop :=
  (∀ row ∈ stage.batch, good row.key row.tile) ∧
    match stage.phase with
    | .flushing rows _ _ => ∀ row ∈ rows, good row.key row.tile
    | _ => True

def RunPhase.Carries : RunPhase → Prop
  | .flushing rows _ _ _ => ∀ row ∈ rows, good row.key row.tile
  | .assets stage => stage.Carries good
  | _ => True

def WarmJob.Carries (job : WarmJob) : Prop :=
  (∀ row ∈ job.batch, good row.key row.tile) ∧ job.phase.Carries good

structure Service.Carries (service : Service Document) : Prop where
  stored : service.cache.tables.Relates good
  workers : ∀ id worker, service.workers id = some worker →
    worker.Carries good
  jobs : ∀ order job, service.warmJobs order = some job → job.Carries good

end Carries

/-! ## Workers -/

section Workers

variable {env : Environment Document} {answered : Worker → Response → Prop}
  {good : TileKey → CachedTile → Prop} {service : Service Document}

theorem related_of_get (stored : service.cache.tables.Relates good)
    {key : TileKey} {tile : CachedTile}
    (found : service.cache.get key = some tile) : good key tile := by
  obtain ⟨row, member, rfl⟩ := Option.map_eq_some_iff.mp found
  obtain ⟨present, same⟩ := KeyedTable.lookup_eq_some.mp member
  have related := stored row present
  rwa [show row.key = key from same] at related

theorem TileTask.carries_answer (made : Made env answered good)
    {task : TileTask} (fetching : task.phase = .fetching)
    {response : Response} (asked : answered (.tile task) response)
    (now : Int) : (warmAnswer env task.key response now).Carries good := by
  have awaits : Worker.awaits (.tile task) = some task.key := by
    simp only [Worker.awaits, fetching]
  simp only [warmAnswer]
  split
  · next ok =>
    split
    · next accepted => exact made.fetched _ _ _ _ asked awaits ok accepted
    · trivial
  · split
    · next missing =>
      apply made.negative _ _ _ _ _ asked awaits missing
      omega
    · trivial

theorem TileTask.carries_missed (task : TileTask) (recheck : Bool) :
    (task.missed recheck).phase.Carries good := by
  cases recheck <;> trivial

theorem TileTask.step_carries (made : Made env answered good)
    {task next : TileTask} {event : Event} {effect : Effect}
    (asked : ∀ response now, event = .answer response now →
      answered (.tile task) response)
    (holds : task.phase.Carries good)
    (stepped : task.step env service event = some (next, effect)) :
    next.phase.Carries good := by
  simp only [TileTask.step] at stepped
  split at stepped
  · cases stepped
    trivial
  · cases stepped
    split
    · trivial
    · trivial
    · exact task.carries_missed _
  · cases stepped
    exact task.carries_missed _
  · cases stepped
    trivial
  · cases stepped
    trivial
  · split at stepped <;> cases stepped <;> trivial
  · next response now fetching =>
    cases stepped
    exact TileTask.carries_answer made fetching (asked response now rfl) now
  · cases stepped
    trivial
  · split at stepped
    · cases stepped
      trivial
    · contradiction
  · next result returning =>
    cases stepped
    rw [returning] at holds
    exact holds
  · contradiction
  · cases stepped
    trivial
  · contradiction

theorem AssetTask.carries_fetch (task : AssetTask) :
    (task.fetch env).phase.Carries good := by
  simp only [AssetTask.fetch]
  split <;> trivial

theorem AssetTask.carries_answer (made : Made env answered good)
    {task : AssetTask} (fetching : task.phase = .fetching)
    {response : Response} (asked : answered (.asset task) response)
    (now : Int) :
    (AssetPhase.returning (warmAssetAnswer env task.job response
      now)).Carries good := by
  have awaits : Worker.awaits (.asset task) = some task.job.key := by
    simp only [Worker.awaits, fetching]
  simp only [warmAssetAnswer]
  split
  · next ok =>
    split
    · next valid => exact made.fetched _ _ _ _ asked awaits ok valid
    · trivial
  · split <;> trivial

theorem AssetTask.step_carries (made : Made env answered good)
    {task next : AssetTask} {event : Event} {effect : Effect}
    (asked : ∀ response now, event = .answer response now →
      answered (.asset task) response)
    (holds : task.phase.Carries good)
    (stepped : task.step env service event = some (next, effect)) :
    next.phase.Carries good := by
  simp only [AssetTask.step] at stepped
  split at stepped
  · split at stepped <;> cases stepped <;> trivial
  · split at stepped
    · cases stepped
      trivial
    · cases stepped
      exact task.carries_fetch
  · cases stepped
    exact task.carries_fetch
  · cases stepped
    trivial
  · cases stepped
    split
    · trivial
    · trivial
    · exact task.carries_fetch
  · cases stepped
    trivial
  · next response now fetching =>
    cases stepped
    exact AssetTask.carries_answer made fetching (asked response now rfl) now
  · cases stepped
    trivial
  · split at stepped
    · cases stepped
      trivial
    · contradiction
  · next result returning =>
    cases stepped
    rw [returning] at holds
    cases result with
    | error reason => trivial
    | ok row => cases row <;> exact holds
  · contradiction
  · cases stepped
    trivial
  · contradiction

theorem LiveFetch.carries_stored (fetch : LiveFetch) (evict : Option Int) :
    (fetch.stored evict).phase.Carries good fetch.key := by
  cases evict <;> trivial

section Answers

variable (made : Made env answered good) {fetch : LiveFetch}
  {stale : Option CachedTile} (fetching : fetch.phase = .fetching stale)
  (carried : ∀ tile ∈ stale, good fetch.key tile) {response : Response}
  (asked : answered (.live fetch) response)

include made fetching carried asked

theorem LiveFetch.carries_fillAnswer (route : fetch.route = .tile)
    {next : LiveFetch} {now : Int}
    (answer : fetch.fillAnswer env service stale response now = some next) :
    next.key = fetch.key ∧ next.phase.Carries good fetch.key := by
  have awaits : Worker.awaits (.live fetch) = some fetch.key := by
    simp only [Worker.awaits, fetching]
  have stores : ∀ tile, good fetch.key tile →
      (fetch.store service tile now).key = fetch.key ∧
        (fetch.store service tile now).phase.Carries good fetch.key :=
    fun _ held => ⟨rfl, held⟩
  have accepts : ∀ {tested : Prop},
      tested ∧ acceptableTile env response = true →
        Worker.accepts env response (.live fetch) = true := by
    intro tested accepted
    simp only [Worker.accepts, route]
    exact accepted.2
  simp only [LiveFetch.fillAnswer] at answer
  split at answer
  · next tile =>
    split at answer
    · cases answer
      exact ⟨rfl, made.renewed _ tile now (carried tile rfl)⟩
    · split at answer
      · next accepted =>
        cases answer
        exact stores _ (made.fetched _ _ _ _ asked awaits accepted.1
          (accepts accepted))
      · contradiction
  · split at answer
    · next accepted =>
      cases answer
      exact stores _ (made.fetched _ _ _ _ asked awaits accepted.1
        (accepts accepted))
    · split at answer
      · next missing =>
        cases answer
        apply stores
        apply made.negative _ _ _ _ _ asked awaits missing
        omega
      · contradiction

theorem LiveFetch.carries_assetAnswer {kind : StyleAssetKind}
    (route : fetch.route = .asset kind) {next : LiveFetch} {now : Int}
    (answer : fetch.assetAnswer env service kind stale response now =
      some next) :
    next.key = fetch.key ∧ next.phase.Carries good fetch.key := by
  have awaits : Worker.awaits (.live fetch) = some fetch.key := by
    simp only [Worker.awaits, fetching]
  simp only [LiveFetch.assetAnswer] at answer
  split at answer
  · obtain ⟨tile, found, rfl⟩ := Option.map_eq_some_iff.mp answer
    exact ⟨rfl, made.renewed _ tile now (carried tile found)⟩
  · split at answer
    · next ok =>
      split at answer
      · next valid =>
        cases answer
        refine ⟨rfl, made.fetched _ _ _ _ asked awaits ok ?_⟩
        simp only [Worker.accepts, route]
        exact valid
      · contradiction
    · split at answer
      · next missing =>
        cases answer
        exact ⟨rfl, made.negative _ _ _ _ _ asked awaits missing (.inl rfl)⟩
      · contradiction

end Answers

theorem LiveFetch.carries_orEnds {fetch next : LiveFetch}
    {answer : Option LiveFetch} {effect : Effect}
    (carried : ∀ going, answer = some going →
      going.key = fetch.key ∧ going.phase.Carries good fetch.key)
    (ended : fetch.orEnds answer = (some next, effect)) :
    next.key = fetch.key ∧ next.phase.Carries good fetch.key := by
  simp only [LiveFetch.orEnds, LiveFetch.ends] at ended
  split at ended
  · cases ended
    exact carried _ rfl
  · cases ended

theorem LiveFetch.step_carries (made : Made env answered good)
    (stored : service.cache.tables.Relates good) {fetch next : LiveFetch}
    {event : Event} {effect : Effect}
    (asked : ∀ response now, event = .answer response now →
      answered (.live fetch) response)
    (holds : fetch.phase.Carries good fetch.key)
    (stepped : fetch.step env service event = some (some next, effect)) :
    next.key = fetch.key ∧ next.phase.Carries good fetch.key := by
  have read : ∀ tile ∈ (service.cache.get fetch.key).filter
      (fetch.servable env), good fetch.key tile := fun tile member =>
    related_of_get stored (Option.filter_eq_some_iff.mp member).1
  have nothing : ∀ tile ∈ (none : Option CachedTile),
      good fetch.key tile := fun _ same => nomatch same
  simp only [LiveFetch.step, LiveFetch.ends] at stepped
  split at stepped
  · cases stepped
  · cases stepped
    exact ⟨rfl, trivial⟩
  · split at stepped
    · cases stepped
    · split at stepped
      · cases stepped
        exact ⟨rfl, read⟩
      · cases stepped
        exact ⟨rfl, trivial⟩
  · split at stepped
    · cases stepped
      exact ⟨rfl, nothing⟩
    · cases stepped
      exact ⟨rfl, trivial⟩
  · cases stepped
  · cases stepped
    exact ⟨rfl, read⟩
  · cases stepped
    exact ⟨rfl, nothing⟩
  · next stale response now fetching =>
    rw [fetching] at holds
    have got := asked response now rfl
    split at stepped
    · next route =>
      exact carries_orEnds (fun _ => carries_fillAnswer made fetching holds
        got route) (Option.some.inj stepped)
    · next kind route =>
      exact carries_orEnds (fun _ => carries_assetAnswer made fetching holds
        got route) (Option.some.inj stepped)
  · cases stepped
  · cases stepped
    exact ⟨rfl, fetch.carries_stored _⟩
  · cases stepped
    exact ⟨rfl, fetch.carries_stored _⟩
  · cases stepped
    exact ⟨rfl, trivial⟩
  · cases stepped
    exact ⟨rfl, trivial⟩
  · cases stepped
  · split at stepped
    · contradiction
    · cases stepped
      exact ⟨rfl, holds⟩
    · cases stepped
      exact ⟨rfl, holds⟩
    · cases stepped
  · contradiction

theorem Worker.step_carries (made : Made env answered good)
    (stored : service.cache.tables.Relates good) {worker next : Worker}
    {event : Event} {effect : Effect}
    (asked : ∀ response now, event = .answer response now →
      answered worker response)
    (holds : worker.Carries good)
    (stepped : worker.step env service event = some (some next, effect)) :
    next.Carries good := by
  cases worker with
  | tile task =>
      obtain ⟨⟨_, _⟩, moved, same⟩ := Option.map_eq_some_iff.mp stepped
      cases same
      exact TileTask.step_carries made asked holds moved
  | asset task =>
      obtain ⟨⟨_, _⟩, moved, same⟩ := Option.map_eq_some_iff.mp stepped
      cases same
      exact AssetTask.step_carries made asked holds moved
  | live fetch =>
      obtain ⟨⟨later, _⟩, moved, same⟩ := Option.map_eq_some_iff.mp stepped
      cases later with
      | none => cases same
      | some later =>
          cases same
          obtain ⟨key, carries⟩ :=
            LiveFetch.step_carries made stored asked holds moved
          change later.phase.Carries good later.key
          rwa [key]
  | deletion pending =>
      obtain ⟨⟨later, _⟩, _, same⟩ := Option.map_eq_some_iff.mp stepped
      cases later <;> cases same
      trivial
  | start pending =>
      obtain ⟨⟨later, _⟩, _, same⟩ := Option.map_eq_some_iff.mp stepped
      cases later <;> cases same
      trivial

theorem carries_request {request : Request} {worker : Worker}
    (asked : request.worker service = some worker) :
    worker.Carries good := by
  cases request with
  | tile key =>
      simp only [Request.worker] at asked
      split at asked
      · cases asked
        trivial
      · contradiction
  | asset wanted =>
      obtain ⟨found, _, rfl⟩ := Option.map_eq_some_iff.mp asked
      trivial
  | delete regionId =>
      simp only [Request.worker] at asked
      split at asked
      · cases asked
        trivial
      · contradiction
  | warm wanted =>
      cases asked
      trivial

end Workers

/-! ## Drivers -/

section Drivers

variable {env : Environment Document} {good : TileKey → CachedTile → Prop}
  {service : Service Document} {job next : WarmJob}

theorem AssetStage.carries_resume (stage : AssetStage)
    (batch : ∀ row ∈ stage.batch, good row.key row.tile)
    (resume : AssetResume) : (stage.enter resume.phase).Carries good := by
  refine ⟨batch, ?_⟩
  cases resume <;> trivial

theorem AssetStage.carries_stopPhase {stage : AssetStage}
    (batch : ∀ row ∈ stage.batch, good row.key row.tile) (reason : AssetStop)
    (resume : AssetResume) :
    (stage.stopAt reason resume.stopPhase).Carries good := by
  refine ⟨batch, ?_⟩
  cases resume <;> trivial

theorem AssetStage.carries_accept {stage : AssetStage}
    (batch : ∀ row ∈ stage.batch, good row.key row.tile)
    {result : Option (Except AssetStop (Option WarmRow))}
    (fetched : (AssetPhase.finished result).Carries good) (cap : Int)
    (resume : AssetResume) : (stage.accept cap resume result).Carries good := by
  unfold AssetStage.accept
  split
  · next row =>
    have longer : ∀ other ∈ stage.batch ++ [row],
        good other.key other.tile := by
      intro other member
      rcases List.mem_append.mp member with earlier | last
      · exact batch other earlier
      · cases List.mem_singleton.mp last
        exact fetched
    dsimp only
    split
    · exact ⟨List.forall_mem_nil _, longer⟩
    · exact AssetStage.carries_resume { stage with
        batch := stage.batch ++ [row] } longer resume
  · exact stage.carries_resume batch resume
  · exact ⟨batch, trivial⟩
  · exact ⟨batch, trivial⟩

theorem AssetStage.carries_finished
    (workers : ∀ id worker, service.workers id = some worker →
      worker.Carries good) {id : Nat}
    {result : Option (Except AssetStop (Option WarmRow))}
    (found : AssetStage.finishedTask service id = some result) :
    (AssetPhase.finished result).Carries good := by
  obtain ⟨task, present, finished⟩ := finishedAsset_eq_some.mp found
  have holds := workers id _ present
  change task.phase.Carries good at holds
  rwa [finished] at holds

theorem AssetStage.step_carries
    (workers : ∀ id worker, service.workers id = some worker →
      worker.Carries good) {stage later : AssetStage} {event : Event}
    {effect : Effect} (holds : stage.Carries good)
    (stepped : stage.step env service job event =
      some (.going later, effect)) : later.Carries good := by
  have batch := holds.1
  simp only [AssetStage.step] at stepped
  split at stepped
  -- The branches which only write other locals.
  all_goals try solve
    | (repeat' split at stepped) <;> first
        | contradiction
        | (cases stepped; done)
        | (cases stepped; first | exact holds | exact ⟨batch, trivial⟩)
  · split at stepped
    · obtain ⟨result, found, same⟩ := Option.map_eq_some_iff.mp stepped
      cases same
      refine AssetStage.carries_accept ?_
        (AssetStage.carries_finished workers found) _ _
      exact batch
    · contradiction
  · cases stepped
    split
    · exact AssetStage.carries_stopPhase batch _ _
    · exact stage.carries_resume batch _
  · cases stepped
    exact AssetStage.carries_stopPhase batch _ _
  · split at stepped
    · obtain ⟨result, found, same⟩ := Option.map_eq_some_iff.mp stepped
      cases same
      split
      · refine AssetStage.carries_accept ?_
          (AssetStage.carries_finished workers found) _ _
        exact batch
      · exact ⟨batch, trivial⟩
    · contradiction
  · repeat' split at stepped
    all_goals cases stepped
    · exact ⟨batch, trivial⟩
    · exact ⟨List.forall_mem_nil _, batch⟩
    · exact ⟨batch, trivial⟩

theorem WarmJob.carries_resume (job : WarmJob)
    (batch : ∀ row ∈ job.batch, good row.key row.tile) (resume : Resume) :
    (job.enter resume.phase).Carries good := by
  refine ⟨batch, ?_⟩
  cases resume <;> trivial

theorem WarmJob.carries_accumulate (job : WarmJob)
    (batch : ∀ row ∈ job.batch, good row.key row.tile) (resume : Resume)
    {fetched : Fetched} (result : fetched.Carries good) :
    (job.accumulate service resume fetched).Carries good := by
  have push : ∀ row : WarmRow, good row.key row.tile →
      ∀ other ∈ job.batch ++ [row], good other.key other.tile := by
    intro row held other member
    rcases List.mem_append.mp member with earlier | last
    · exact batch other earlier
    · cases List.mem_singleton.mp last
      exact held
  have pushed : ∀ row : WarmRow, good row.key row.tile →
      (job.accumulate service resume (.tile row)).Carries good := by
    intro row held
    simp only [WarmJob.accumulate]
    split
    · exact ⟨List.forall_mem_nil _, push row held⟩
    · exact WarmJob.carries_resume { job with batch := job.batch ++ [row] }
        (push row held) resume
  cases fetched with
  | tile row => exact pushed row result
  | negative row => exact pushed row result
  | skipped =>
      exact WarmJob.carries_resume { job with skipped := job.skipped + 1 }
        batch resume
  | capped => exact ⟨batch, trivial⟩
  | error =>
      exact WarmJob.carries_resume { job with errors := job.errors + 1 }
        batch resume
  | cancelled => exact ⟨batch, trivial⟩

theorem WarmJob.carries_finished
    (workers : ∀ id worker, service.workers id = some worker →
      worker.Carries good) {id : Nat} {fetched : Fetched}
    (found : WarmJob.finishedTask service id = some (some fetched)) :
    fetched.Carries good := by
  obtain ⟨task, present, finished⟩ := finishedTask_eq_some.mp found
  have holds := workers id _ present
  change task.phase.Carries good at holds
  rwa [finished] at holds

theorem WarmJob.carries_flushed (job : WarmJob)
    (batch : ∀ row ∈ job.batch, good row.key row.tile) (resume : Resume)
    (outcome : PutManyOutcome) :
    (job.flushed resume outcome).Carries good := by
  simp only [WarmJob.flushed]
  split
  · cases resume <;> exact ⟨batch, trivial⟩
  · exact WarmJob.carries_resume { job with
      done := job.done + outcome.stored
      bytes := job.bytes + outcome.bytesAdded } batch resume

@[simp] theorem WarmJob.batch_checkErrors :
    job.checkErrors.batch = job.batch := by
  unfold WarmJob.checkErrors
  split <;> rfl

@[simp] theorem WarmJob.batch_checkComplete :
    job.checkComplete.batch = job.batch := by
  unfold WarmJob.checkComplete
  split <;> rfl

@[simp] theorem WarmJob.batch_checkGeneration :
    (job.checkGeneration service).batch = job.batch := by
  unfold WarmJob.checkGeneration
  split <;> rfl

theorem WarmJob.carries_conclude (job : WarmJob)
    (batch : ∀ row ∈ job.batch, good row.key row.tile) :
    job.conclude.Carries good := by
  unfold WarmJob.conclude
  split <;> exact ⟨batch, trivial⟩

theorem WarmJob.carries_assetsStopped (job : WarmJob)
    (batch : ∀ row ∈ job.batch, good row.key row.tile) (reason : AssetStop) :
    (job.assetsStopped reason).Carries good := by
  unfold WarmJob.assetsStopped
  split
  · exact ⟨batch, trivial⟩
  · cases reason <;> exact ⟨batch, trivial⟩

open WarmJob in
theorem WarmJob.step_carries
    (workers : ∀ id worker, service.workers id = some worker →
      worker.Carries good) {event : Event} {effect : Effect}
    (holds : job.Carries good)
    (stepped : job.step env service event = some (next, effect)) :
    next.Carries good := by
  have batch := holds.1
  simp only [WarmJob.step] at stepped
  split at stepped
  -- The branches which only write other locals.
  all_goals try solve
    | (repeat' split at stepped) <;> first
        | contradiction
        | (cases stepped; exact ⟨batch, trivial⟩)
  · -- A finished task while tiles are enumerated.
    split at stepped
    · obtain ⟨result, found, same⟩ := Option.map_eq_some_iff.mp stepped
      cases same
      cases result with
      | none => exact ⟨batch, trivial⟩
      | some fetched =>
          exact carries_accumulate (job.withoutTask _) batch .draining
            (carries_finished workers found)
    · contradiction
  · cases stepped
    exact job.carries_flushed batch _ _
  · cases stepped
    exact carries_resume { job with errors := job.errors + 1 } batch _
  · -- A finished task after the enumeration.
    split at stepped
    · obtain ⟨result, found, same⟩ := Option.map_eq_some_iff.mp stepped
      cases same
      cases result with
      | none => exact ⟨batch, trivial⟩
      | some fetched =>
          simp only [joinedTask]
          split
          · exact carries_accumulate (job.withoutTask _) batch .joining
              (carries_finished workers found)
          · exact ⟨batch, trivial⟩
    · contradiction
  · -- The tail of the batch.
    have kept : ∀ row ∈ job.checkErrors.batch, good row.key row.tile := by
      simpa using batch
    split at stepped <;> cases stepped
    · exact ⟨List.forall_mem_nil _, kept⟩
    · exact ⟨kept, trivial⟩
  · -- The counters.
    have kept : ∀ row ∈ (job.checkErrors.checkComplete.checkGeneration
        service).batch, good row.key row.tile := by
      simpa using batch
    split at stepped <;> cases stepped
    · exact ⟨kept, List.forall_mem_nil _, trivial⟩
    · exact ⟨kept, trivial⟩
  · -- The assets.
    next staging =>
    obtain ⟨⟨progress, _⟩, moved, same⟩ := Option.map_eq_some_iff.mp stepped
    cases same
    cases progress with
    | going later =>
        have stage := holds.2
        rw [staging] at stage
        exact ⟨batch, AssetStage.step_carries workers stage moved⟩
    | staged => exact ⟨batch, trivial⟩
    | stopped reason => exact job.carries_assetsStopped batch reason
  · -- Whether anything is replaced.
    have kept : ∀ row ∈ (job.checkGeneration service).batch,
        good row.key row.tile := by
      simpa using batch
    split at stepped <;> cases stepped
    · exact ⟨kept, trivial⟩
    · exact carries_conclude _ kept
  · -- The last check of the generation.
    have kept : ∀ row ∈ (job.checkGeneration service).batch,
        good row.key row.tile := by
      simpa using batch
    split at stepped <;> cases stepped
    · exact ⟨kept, trivial⟩
    · exact ⟨kept, trivial⟩
  · cases stepped
    exact job.carries_conclude batch

end Drivers

/-! ## The service -/

section Service

variable {env : Environment Document} {answered : Worker → Response → Prop}
  {good : TileKey → CachedTile → Prop} {service next : Service Document}
  {label : Label Document}

/-- The rows of a call were carried by the party which issues it. -/
theorem Issues.writtenRows (holds : service.Carries good) {op : CacheOp}
    (issues : Issues env service label op) :
    ∀ row ∈ op.writtenRows, good row.key row.tile := by
  intro row member
  cases issues with
  | enforce => contradiction
  | background op allowed =>
      cases op <;> contradiction
  | work found calls =>
      have carried := holds.workers _ _ found
      cases calls with
      | put disk now storing =>
          cases List.mem_singleton.mp member
          change LivePhase.Carries good _ _ at carried
          rwa [storing] at carried
      | _ => contradiction
  | drive found calls =>
      have carried := (holds.jobs _ _ found).2
      cases calls with
      | flush disk now flushing =>
          rw [flushing] at carried
          exact carried row member
      | assetFlush disk now staging flushing =>
          rw [staging] at carried
          have rows := carried.2
          rw [flushing] at rows
          exact rows row member
      | _ => contradiction

theorem relates_booted (stored : service.cache.tables.Relates good)
    (deferred evicted : Bool) (bootId : String) :
    (service.booted env deferred evicted bootId).cache.tables.Relates
      good := by
  exact booted_preserves (motive := fun tables => tables.Relates good)
    (fun _ drop before => Tables.Relates.deleteTiles before _)
    (fun _ before => Tables.Relates.setPinned before _ false)
    deferred evicted bootId stored

/-- A step keeps the relation if the answer which it hands to a party is one
of those of which the relation speaks. -/
theorem Service.Carries.step (made : Made env answered good)
    (asked : ∀ id worker response now, label = .work id (.answer response now) →
      service.workers id = some worker → answered worker response)
    (holds : service.Carries good)
    (stepped : step env service label = some next) : next.Carries good where
  stored := by
    rcases step_cache stepped with ⟨deferred, evicted, bootId, rfl⟩ | same |
      ⟨op, issues, same⟩
    · simp only [Warm.step] at stepped
      split at stepped
      · cases stepped
        exact relates_booted holds.stored deferred evicted bootId
      · contradiction
    · rw [same]
      exact holds.stored
    · rw [same]
      exact relates_apply made.ageless holds.stored
        (issues.writtenRows holds)
  workers id worker found := by
    cases worker_origin stepped found with
    | stays before => exact holds.workers id worker before
    | moves before advanced =>
        refine Worker.step_carries made holds.stored ?_
          (holds.workers id _ before) advanced
        intro response now same
        cases same
        exact asked _ _ response now rfl before
    | spawned before advanced free =>
        rcases WarmJob.step_spawn advanced with
          ⟨task, rfl, _, _, phase, _⟩ | ⟨task, rfl, _, phase⟩
        · change task.phase.Carries good
          rw [phase]
          trivial
        · change task.phase.Carries good
          rw [phase]
          trivial
    | requested asked => exact carries_request asked
  jobs order job found := by
    cases job_origin stepped found with
    | flagged cancel others before =>
        have carried := holds.jobs order _ before
        exact ⟨carried.1, carried.2⟩
    | moves before advanced =>
        exact WarmJob.step_carries holds.workers (holds.jobs order _ before)
          advanced
    | registered => exact ⟨List.forall_mem_nil _, trivial⟩

end Service

end ChartLocker.Warm
