import ChartLocker.Warm.Frames

/-!
# Where the parties come from

A party of the service after a step was there before it, has taken the step
itself, or was created by the step.  The invariants of the parties are proved
by these cases.
-/

namespace ChartLocker.Warm

open Library Cache Catalog

variable {Document : Type} {env : Environment Document}
  {service : Service Document}

/-! ## Steps of the driver -/

def Worker.isTask : Worker → Bool
  | .tile _ | .asset _ => true
  | _ => false

/-- The effects of the driver before it returns. -/
def Effect.Driven (service : Service Document) : Effect → Prop
  | .quiet | .call _ | .holdAssets | .freeAssets | .lockConfig _
  | .unlockConfig _ => True
  | .spawn _ worker => worker.isTask = true
  | .take id => (service.workers id).any Worker.isTask = true
  | _ => False

/-- What the driver of a job never changes, and that a verdict is final. -/
structure WarmJob.Follows (job next : WarmJob) : Prop where
  spec : next.toRunSpec = job.toRunSpec
  order : next.order = job.order
  verdict : next.finalState = .running → job.finalState = .running
  state : next.state = .running →
    job.state = .running ∨ job.finalState = .running
  going : next.phase = .finished → job.phase = .finished

namespace WarmJob

variable {job next last : WarmJob}

theorem Follows.refl (job : WarmJob) : job.Follows job :=
  ⟨rfl, rfl, id, .inl, id⟩

theorem Follows.trans (first : job.Follows next)
    (second : next.Follows last) : job.Follows last where
  spec := second.spec.trans first.spec
  order := second.order.trans first.order
  verdict running := first.verdict (second.verdict running)
  state running := (second.state running).elim first.state
    fun verdict => .inr (first.verdict verdict)
  going ended := first.going (second.going ended)

theorem follows_enter {phase : RunPhase} (going : phase ≠ .finished) :
    job.Follows (job.enter phase) :=
  ⟨rfl, rfl, id, .inl, fun ended => absurd ended going⟩

theorem follows_breakWith {state : WarmState} (verdict : state ≠ .running) :
    job.Follows (job.breakWith state) :=
  ⟨rfl, rfl, fun running => absurd running verdict, .inl,
    fun ended => RunPhase.noConfusion ended⟩

theorem follows_cancelWith {state : WarmState} (verdict : state ≠ .running) :
    job.Follows (job.cancelWith state) :=
  (follows_breakWith verdict).trans ⟨rfl, rfl, id, .inl, id⟩

theorem follows_abort : job.Follows job.abort :=
  ⟨rfl, rfl, id, fun running => WarmState.noConfusion running,
    fun ended => RunPhase.noConfusion ended⟩

theorem follows_abortExpansion : job.Follows job.abortExpansion :=
  ⟨rfl, rfl, id, fun running => WarmState.noConfusion running,
    fun ended => RunPhase.noConfusion ended⟩

theorem Resume.phase_ne_finished (resume : Resume) :
    resume.phase ≠ .finished := by
  cases resume <;> simp [Resume.phase]

theorem follows_accumulate (resume : Resume) (fetched : Fetched) :
    job.Follows (job.accumulate service resume fetched) := by
  have resumed := Resume.phase_ne_finished resume
  cases fetched with
  | tile row | negative row =>
      simp only [accumulate]
      split
      · exact ⟨rfl, rfl, id, .inl, fun ended => RunPhase.noConfusion ended⟩
      · exact ⟨rfl, rfl, id, .inl, fun ended => absurd ended resumed⟩
  | skipped => exact ⟨rfl, rfl, id, .inl, fun ended => absurd ended resumed⟩
  | error => exact ⟨rfl, rfl, id, .inl, fun ended => absurd ended resumed⟩
  | capped => exact follows_cancelWith (by decide)
  | cancelled => exact follows_cancelWith (by decide)

theorem follows_flushed (resume : Resume) (outcome : PutManyOutcome) :
    job.Follows (job.flushed resume outcome) := by
  have counted : job.Follows { job with
      done := job.done + outcome.stored
      bytes := job.bytes + outcome.bytesAdded } :=
    ⟨rfl, rfl, id, .inl, id⟩
  simp only [flushed]
  split
  · cases resume with
    | counting =>
        exact ⟨rfl, rfl, fun running => WarmState.noConfusion running, .inl,
          fun ended => RunPhase.noConfusion ended⟩
    | draining => exact counted.trans (follows_cancelWith (by decide))
    | joining => exact counted.trans (follows_cancelWith (by decide))
  · exact counted.trans (follows_enter (Resume.phase_ne_finished resume))

theorem follows_withoutTask (id : Nat) : job.Follows (job.withoutTask id) :=
  ⟨rfl, rfl, fun running => running, .inl, fun ended => ended⟩

theorem follows_drained (result : Option Fetched) :
    job.Follows (job.drained service result) := by
  cases result with
  | some fetched => exact follows_accumulate .draining fetched
  | none =>
      have counted : job.Follows { job with errors := job.errors + 1 } :=
        ⟨rfl, rfl, id, .inl, id⟩
      exact counted.trans (follows_cancelWith (by decide))

theorem follows_joinedTask (result : Option Fetched) :
    job.Follows (job.joinedTask service result) := by
  cases result with
  | some fetched =>
      simp only [joinedTask]
      split
      · exact follows_accumulate .joining fetched
      · exact follows_enter (by simp)
  | none =>
      have counted : job.Follows { job with errors := job.errors + 1 } :=
        ⟨rfl, rfl, id, .inl, id⟩
      exact counted.trans (follows_breakWith (by decide))

/-- A check of the counters or of the generation only turns the verdict into
an error. -/
theorem follows_error : job.Follows { job with finalState := .error } :=
  ⟨rfl, rfl, fun running => WarmState.noConfusion running, .inl, id⟩

theorem follows_checkErrors : job.Follows job.checkErrors := by
  unfold checkErrors
  split
  · exact follows_error
  · exact .refl job

theorem follows_checkComplete : job.Follows job.checkComplete := by
  unfold checkComplete
  split
  · exact follows_error
  · exact .refl job

theorem follows_checkGeneration :
    job.Follows (job.checkGeneration service) := by
  unfold checkGeneration
  split
  · exact follows_error
  · exact .refl job

theorem follows_assetsStopped (reason : AssetStop) :
    job.Follows (job.assetsStopped reason) := by
  unfold assetsStopped
  split
  · exact ⟨rfl, rfl, fun running => WarmState.noConfusion running, .inl,
      fun ended => RunPhase.noConfusion ended⟩
  · cases reason <;>
      exact ⟨rfl, rfl, fun running => WarmState.noConfusion running, .inl,
        fun ended => RunPhase.noConfusion ended⟩

theorem follows_conclude : job.Follows job.conclude := by
  unfold conclude
  split
  · exact follows_enter (by simp)
  · exact follows_enter (by simp)

end WarmJob

/-- The driver goes on, or it releases its region and returns. -/
inductive WarmJob.Advances (service : Service Document) (job next : WarmJob)
    (effect : Effect) : Prop where
  | goes (working : job.phase ≠ .finished) (follows : job.Follows next)
      (driven : effect.Driven service)
  | returns (working : job.phase ≠ .finished)
      (ended : next = job.enter .finished)
      (release : effect = .releaseRegion job.regionId)

/-- A finished task gives its result. -/
theorem finishedTask_eq_some {id : Nat} {result : Option Fetched} :
    WarmJob.finishedTask service id = some result ↔
      ∃ task, service.workers id = some (.tile task) ∧
        task.phase = .finished result := by
  unfold WarmJob.finishedTask
  split
  · next held key target storage credit flight returned task =>
    simp [task, eq_comm]
  · next other =>
    simp only [reduceCtorEq, false_iff, not_exists, not_and]
    rintro ⟨order, source, key, target, storage, credit, held, phase⟩ found
      rfl
    exact other _ _ _ _ _ _ _ _ found

theorem finishedAsset_eq_some {id : Nat}
    {result : Option (Except AssetStop (Option WarmRow))} :
    AssetStage.finishedTask service id = some result ↔
      ∃ task, service.workers id = some (.asset task) ∧
        task.phase = .finished result := by
  unfold AssetStage.finishedTask
  split
  · next task => simp [task, eq_comm]
  · next other =>
    simp only [reduceCtorEq, false_iff, not_exists, not_and]
    rintro ⟨order, job, region, budget, phase⟩ found rfl
    exact other _ _ _ _ _ found

theorem driven_take_tile {id : Nat} {result : Option Fetched}
    (found : WarmJob.finishedTask service id = some result) :
    (Effect.take id).Driven service := by
  obtain ⟨task, present, _⟩ := finishedTask_eq_some.mp found
  simp [Effect.Driven, present, Worker.isTask]

theorem driven_take_asset {id : Nat}
    {result : Option (Except AssetStop (Option WarmRow))}
    (found : AssetStage.finishedTask service id = some result) :
    (Effect.take id).Driven service := by
  obtain ⟨task, present, _⟩ := finishedAsset_eq_some.mp found
  simp [Effect.Driven, present, Worker.isTask]

theorem AssetStage.step_driven {job : WarmJob} {stage : AssetStage}
    {event : Event} {progress : AssetProgress} {effect : Effect}
    (stepped : stage.step env service job event = some (progress, effect)) :
    effect.Driven service := by
  simp only [AssetStage.step] at stepped
  repeat' split at stepped
  all_goals first
    | contradiction
    | (cases stepped; trivial)
    | (obtain ⟨result, found, same⟩ := Option.map_eq_some_iff.mp stepped
       cases same
       exact driven_take_asset found)

open WarmJob in
theorem WarmJob.step_advances {job next : WarmJob} {event : Event}
    {effect : Effect}
    (stepped : job.step env service event = some (next, effect)) :
    job.Advances service next effect := by
  have working : job.phase ≠ .finished := by
    intro ended
    simp [WarmJob.step, ended] at stepped
  simp only [WarmJob.step] at stepped
  split at stepped
  -- The branches which only write locals of the driver, or abort.
  all_goals try solve
    | (repeat' split at stepped) <;> first
        | contradiction
        | (cases stepped
           refine .goes working ⟨rfl, rfl, id, .inl, ?_⟩ trivial
           simp [enter]
           done)
        | (cases stepped; exact .goes working follows_abort trivial)
  · -- A style has been learned.
    repeat' split at stepped
    all_goals first | contradiction | cases stepped
    · exact .goes working ⟨rfl, rfl, id, .inl, by simp⟩ trivial
    · exact .goes working follows_abortExpansion trivial
    · exact .goes working follows_abortExpansion trivial
  · -- Every source is expanded.
    split at stepped <;> cases stepped
    · exact .goes working follows_abortExpansion trivial
    · exact .goes working (follows_enter (by simp)) trivial
  · -- The hard cap.
    split at stepped <;> cases stepped
    · exact .goes working
        ⟨rfl, rfl, id, by simp [abort], by simp [abort]⟩ trivial
    · exact .goes working ⟨rfl, rfl, id, .inl, by simp⟩ trivial
  · -- The enumeration.
    repeat' split at stepped
    all_goals cases stepped
    · exact .goes working (follows_enter (by simp)) trivial
    · exact .goes working (follows_breakWith (by decide)) trivial
    · exact .goes working (follows_breakWith (by decide)) trivial
    · exact .goes working (follows_enter (by simp)) trivial
  · -- A task is spawned.
    split at stepped
    · cases stepped
      exact .goes working ⟨rfl, rfl, id, .inl, by simp⟩ rfl
    · contradiction
  · -- No permit.
    repeat' split at stepped
    all_goals first | contradiction | cases stepped
    · exact .goes working (follows_breakWith (by decide)) trivial
    · exact .goes working (follows_breakWith (by decide)) trivial
  · -- A finished task while tiles are enumerated.
    split at stepped
    · obtain ⟨result, found, same⟩ := Option.map_eq_some_iff.mp stepped
      cases same
      exact .goes working ((follows_withoutTask _).trans
        (follows_drained result)) (driven_take_tile found)
    · contradiction
  · -- A flush.
    cases stepped
    exact .goes working (follows_flushed _ _) trivial
  · -- A flush which fails.
    next resume _ =>
    cases stepped
    exact .goes working ⟨rfl, rfl, id, .inl, fun ended =>
      absurd ended (Resume.phase_ne_finished resume)⟩ trivial
  · -- The enumeration has ended.
    split at stepped <;> cases stepped
    · exact .goes working ⟨rfl, rfl, by simp, .inl, by simp⟩ trivial
    · exact .goes working (follows_enter (by simp)) trivial
  · -- A finished task after the enumeration.
    split at stepped
    · obtain ⟨result, found, same⟩ := Option.map_eq_some_iff.mp stepped
      cases same
      exact .goes working ((follows_withoutTask _).trans
        (follows_joinedTask result)) (driven_take_tile found)
    · contradiction
  · -- The tail of the batch.
    split at stepped <;> cases stepped
    · exact .goes working (follows_checkErrors.trans
        ⟨rfl, rfl, id, .inl, by simp [flush]⟩) trivial
    · exact .goes working (follows_checkErrors.trans
        (follows_enter (by simp))) trivial
  · -- The counters.
    have checked : job.Follows
        (job.checkErrors.checkComplete.checkGeneration service) :=
      follows_checkErrors.trans (follows_checkComplete.trans
        follows_checkGeneration)
    split at stepped <;> cases stepped
    · exact .goes working (checked.trans (follows_enter (by simp))) trivial
    · exact .goes working (checked.trans (follows_enter (by simp))) trivial
  · -- The assets.
    obtain ⟨⟨progress, _⟩, moved, same⟩ := Option.map_eq_some_iff.mp stepped
    cases same
    have driven := AssetStage.step_driven moved
    cases progress with
    | going stage => exact .goes working (follows_enter (by simp)) driven
    | staged => exact .goes working ⟨rfl, rfl, id, .inl, by simp⟩ driven
    | stopped reason =>
        exact .goes working (follows_assetsStopped reason) driven
  · -- Whether anything is replaced.
    split at stepped <;> cases stepped
    · exact .goes working (follows_checkGeneration.trans
        (follows_enter (by simp))) trivial
    · exact .goes working (follows_checkGeneration.trans follows_conclude)
        trivial
  · -- The last check of the generation.
    split at stepped <;> cases stepped
    · exact .goes working (follows_checkGeneration.trans
        (follows_enter (by simp))) trivial
    · exact .goes working (follows_checkGeneration.trans
        (follows_enter (by simp))) trivial
  · -- The promotion.
    cases stepped
    refine .goes working ⟨rfl, rfl, ?_, .inl, by simp⟩ trivial
    dsimp only
    split <;> simp
  · -- The promotion fails.
    cases stepped
    exact .goes working ⟨rfl, rfl, by simp, .inl, by simp⟩ trivial
  · cases stepped
    exact .goes working follows_conclude trivial
  · -- The verdict.
    cases stepped
    exact .goes working ⟨rfl, rfl, id, .inr, by simp⟩ trivial
  · cases stepped
    exact .returns working rfl rfl

/-! ## Effects of workers -/

/-- The effects of the parties which are neither drivers nor requests for a
warm. -/
def Effect.isLocal : Effect → Bool
  | .quiet | .call _ | .lockFlight _ | .freeFlight _ | .endTask _
  | .lockConfig _ | .unlockConfig _ | .cancelRegion _ => true
  | _ => false

theorem TileTask.step_local {task moved : TileTask} {event : Event}
    {effect : Effect}
    (stepped : task.step env service event = some (moved, effect)) :
    effect.isLocal = true := by
  simp only [TileTask.step] at stepped
  repeat' split at stepped
  all_goals first | contradiction | (cases stepped; rfl)

theorem AssetTask.step_local {task moved : AssetTask} {event : Event}
    {effect : Effect}
    (stepped : task.step env service event = some (moved, effect)) :
    effect.isLocal = true := by
  simp only [AssetTask.step] at stepped
  repeat' split at stepped
  all_goals first | contradiction | (cases stepped; rfl)

theorem LiveFetch.step_local {fetch : LiveFetch} {moved : Option LiveFetch}
    {event : Event} {effect : Effect}
    (stepped : fetch.step env service event = some (moved, effect)) :
    effect.isLocal = true := by
  simp only [LiveFetch.step, LiveFetch.ends, LiveFetch.orEnds] at stepped
  repeat' split at stepped
  all_goals first | contradiction | (cases stepped; rfl)

theorem Deletion.step_local {deletion : Deletion} {moved : Option Deletion}
    {event : Event} {effect : Effect}
    (stepped : deletion.step service event = some (moved, effect)) :
    effect.isLocal = true := by
  simp only [Deletion.step] at stepped
  repeat' split at stepped
  all_goals first | contradiction | (cases stepped; rfl)

/-- What a request for a warm does beside taking and freeing locks. -/
inductive Start.Opens (service : Service Document) (start : Start) :
    Event → Effect → Prop where
  | reserves (region : String) :
      Opens service start .go (.reserveRegion region)
  | registers {holder : Nat} {resolved : List ChartSource} {total : Nat}
      (registering : start.phase = .registering holder resolved total)
      (room : service.runningJobs < maxActiveWarmJobs) :
      Opens service start .go
        (.register holder (start.request.job service resolved total))
  | refuses (event : Event) (holder : Nat) (regionId : Option String) :
      Opens service start event (.refuse holder regionId)

theorem Start.step_opens {start : Start} {moved : Option Start}
    {event : Event} {effect : Effect}
    (stepped : start.step env service event = some (moved, effect)) :
    effect.isLocal = true ∨ start.Opens service event effect := by
  simp only [Start.step] at stepped
  split at stepped
  all_goals try solve | (repeat' split at stepped) <;> first
      | contradiction
      | (cases stepped; exact .inl rfl)
      | (cases stepped; exact .inr (.refuses _ _ _))
  · split at stepped
    · split at stepped <;> cases stepped
      · exact .inl rfl
      · exact .inr (.reserves _)
    · cases stepped
      exact .inl rfl
  · next registering =>
    split at stepped
    · cases stepped
      exact .inr (.refuses _ _ _)
    · next room =>
      cases stepped
      exact .inr (.registers registering (Nat.lt_of_not_le room))

theorem Worker.step_opens {worker : Worker} {moved : Option Worker}
    {event : Event} {effect : Effect}
    (stepped : worker.step env service event = some (moved, effect)) :
    effect.isLocal = true ∨
      ∃ start, worker = .start start ∧ start.Opens service event effect := by
  cases worker with
  | tile task =>
      obtain ⟨⟨_, _⟩, advanced, same⟩ := Option.map_eq_some_iff.mp stepped
      cases same
      exact .inl (TileTask.step_local advanced)
  | asset task =>
      obtain ⟨⟨_, _⟩, advanced, same⟩ := Option.map_eq_some_iff.mp stepped
      cases same
      exact .inl (AssetTask.step_local advanced)
  | live fetch =>
      obtain ⟨⟨_, _⟩, advanced, same⟩ := Option.map_eq_some_iff.mp stepped
      cases same
      exact .inl (LiveFetch.step_local advanced)
  | deletion pending =>
      obtain ⟨⟨_, _⟩, advanced, same⟩ := Option.map_eq_some_iff.mp stepped
      cases same
      exact .inl (Deletion.step_local advanced)
  | start pending =>
      obtain ⟨⟨_, _⟩, advanced, same⟩ := Option.map_eq_some_iff.mp stepped
      cases same
      exact (Start.step_opens advanced).imp_right fun opens =>
        ⟨pending, rfl, opens⟩

/-! ## Origins -/

/-- How a worker comes to be in its state. -/
inductive WorkerOrigin (env : Environment Document)
    (service : Service Document) :
    Label Document → Nat → Worker → Prop where
  | stays {label : Label Document} {id : Nat} {worker : Worker}
      (found : service.workers id = some worker) :
      WorkerOrigin env service label id worker
  | moves {id : Nat} {event : Event} {worker earlier : Worker}
      {effect : Effect} (found : service.workers id = some earlier)
      (stepped : earlier.step env service event =
        some (some worker, effect)) :
      WorkerOrigin env service (.work id event) id worker
  | spawned {id order : Nat} {event : Event} {worker : Worker}
      {job moved : WarmJob} (found : service.warmJobs order = some job)
      (stepped : job.step env service event = some (moved, .spawn id worker))
      (free : service.workers id = none) :
      WorkerOrigin env service (.drive order event) id worker
  | requested {id : Nat} {request : Request} {worker : Worker}
      (asked : request.worker service = some worker) :
      WorkerOrigin env service (.request id request) id worker

/-- How a job comes to be in its state. -/
inductive JobOrigin (env : Environment Document)
    (service next : Service Document) :
    Label Document → Nat → WarmJob → Prop where
  | flagged {label : Label Document} {order : Nat} {job : WarmJob}
      (cancel : Bool) (others : ∀ event, label ≠ .drive order event)
      (found : service.warmJobs order = some job) :
      JobOrigin env service next label order { job with cancel := cancel }
  | moves {order : Nat} {event : Event} {job earlier : WarmJob}
      {effect : Effect} (found : service.warmJobs order = some earlier)
      (stepped : earlier.step env service event = some (job, effect)) :
      JobOrigin env service next (.drive order event) order job
  | registered {id holder total : Nat} {start : Start}
      {resolved : List ChartSource}
      (found : service.workers id = some (.start start))
      (registering : start.phase = .registering holder resolved total)
      (room : service.runningJobs < maxActiveWarmJobs)
      (seq : next.warmSeq = service.warmSeq + 1) :
      JobOrigin env service next (.work id .go) service.warmSeq
        (start.request.job service resolved total)

section Parties

variable {next : Service Document} {label : Label Document}

theorem JobOrigin.stays {order : Nat} {job : WarmJob}
    (others : ∀ event, label ≠ .drive order event)
    (found : service.warmJobs order = some job) :
    JobOrigin env service next label order job :=
  .flagged job.cancel others found

/-! ## Effects on parties -/

theorem Performed.worker {effect : Effect} {id : Nat} {worker : Worker}
    (performed : Performed service effect next)
    (found : next.workers id = some worker) :
    service.workers id = some worker ∨
      (effect = .spawn id worker ∧ service.workers id = none) := by
  rw [performed.workers] at found
  cases effect with
  | spawn other spawned =>
      by_cases same : id = other
      · subst same
        cases (Function.update_self _ _ _).symm.trans found
        exact .inr ⟨rfl, performed.freshTask _ _ rfl⟩
      · exact .inl ((Function.update_of_ne same _ _).symm.trans found)
  | take other =>
      by_cases same : id = other
      · subst same
        cases (Function.update_self _ _ _).symm.trans found
      · exact .inl ((Function.update_of_ne same _ _).symm.trans found)
  | _ => exact .inl found

theorem Performed.job {effect : Effect} {order : Nat} {job : WarmJob}
    (performed : Performed service effect next)
    (found : next.warmJobs order = some job) :
    (∃ cancel earlier, service.warmJobs order = some earlier ∧
      job = { earlier with cancel := cancel }) ∨
    (∃ holder, effect = .register holder job ∧
      order = service.warmSeq) := by
  rw [performed.warmJobs] at found
  cases effect with
  | register holder registered =>
      by_cases same : order = service.warmSeq
      · subst same
        cases (Function.update_self _ _ _).symm.trans found
        exact .inr ⟨holder, rfl, rfl⟩
      · exact .inl ⟨job.cancel, job,
          (Function.update_of_ne same _ _).symm.trans found, rfl⟩
  | cancelRegion regionId =>
      obtain ⟨earlier, same, rfl⟩ := Option.map_eq_some_iff.mp found
      split
      · exact .inl ⟨true, earlier, same, rfl⟩
      · exact .inl ⟨earlier.cancel, earlier, same, rfl⟩
  | _ => exact .inl ⟨job.cancel, job, found, rfl⟩

/-! ## The parties after a step -/

theorem worker_origin {id : Nat} {worker : Worker}
    (stepped : step env service label = some next)
    (found : next.workers id = some worker) :
    WorkerOrigin env service label id worker := by
  cases label with
  | config label =>
      simp only [step] at stepped
      split at stepped
      · obtain ⟨app, _, rfl⟩ := Option.map_eq_some_iff.mp stepped
        exact .stays found
      · contradiction
  | boot deferred evicted bootId =>
      simp only [step] at stepped
      split at stepped
      · cases stepped
        cases found
      · contradiction
  | drive order event =>
      obtain ⟨job, present, ⟨moved, effect⟩, advanced, performed⟩ :=
        drive_eq_some.mp stepped
      rcases (performed_of_perform performed).worker found with same |
        ⟨spawned, free⟩
      · exact .stays same
      · subst spawned
        exact .spawned present advanced free
  | work party event =>
      obtain ⟨earlier, present, ⟨moved, effect⟩, advanced, performed⟩ :=
        work_eq_some.mp stepped
      rcases (performed_of_perform performed).worker found with same |
        ⟨spawned, _⟩
      · by_cases own : id = party
        · subst own
          change Function.update service.workers id moved id = _ at same
          rw [Function.update_self] at same
          subst same
          exact .moves present advanced
        · exact .stays ((Function.update_of_ne own _ _).symm.trans same)
      · -- No worker spawns another one.
        subst spawned
        rcases Worker.step_opens advanced with plain | ⟨start, _, opens⟩
        · cases plain
        · cases opens
  | request party request =>
      simp only [step] at stepped
      split at stepped
      · contradiction
      · obtain ⟨created, asked, rfl⟩ := Option.map_eq_some_iff.mp stepped
        by_cases own : id = party
        · subst own
          cases (Function.update_self _ _ _).symm.trans found
          exact .requested asked
        · exact .stays ((Function.update_of_ne own _ _).symm.trans found)
  | cancel order =>
      cases stepped
      exact .stays found
  | shutdown =>
      cases stepped
      exact .stays found
  | background op =>
      simp only [step] at stepped
      split at stepped
      · cases stepped
        exact .stays found
      · contradiction

/-- A step of a driver writes its own record alone. -/
theorem drive_jobs {order : Nat} {event : Event} {earlier moved : WarmJob}
    {effect : Effect}
    (advanced : earlier.step env service event = some (moved, effect))
    (performed : Performed (service.setJob order (some moved)) effect next) :
    next.warmJobs =
      Function.update service.warmJobs order (some moved) := by
  rw [performed.warmJobs]
  cases WarmJob.step_advances advanced with
  | goes working follows driven =>
      cases effect <;> first | rfl | exact driven.elim
  | returns working ended release =>
      subst release
      rfl

theorem job_origin {order : Nat} {job : WarmJob}
    (stepped : step env service label = some next)
    (found : next.warmJobs order = some job) :
    JobOrigin env service next label order job := by
  cases label with
  | config label =>
      simp only [step] at stepped
      split at stepped
      · obtain ⟨app, _, rfl⟩ := Option.map_eq_some_iff.mp stepped
        exact .stays (by simp) found
      · contradiction
  | boot deferred evicted bootId =>
      simp only [step] at stepped
      split at stepped
      · cases stepped
        cases found
      · contradiction
  | drive driven event =>
      obtain ⟨earlier, present, ⟨moved, effect⟩, advanced, performed⟩ :=
        drive_eq_some.mp stepped
      rw [drive_jobs advanced (performed_of_perform performed)] at found
      by_cases own : order = driven
      · subst own
        cases (Function.update_self _ _ _).symm.trans found
        exact .moves present advanced
      · exact .stays (by simp [Ne.symm own])
          ((Function.update_of_ne own _ _).symm.trans found)
  | work party event =>
      obtain ⟨earlier, present, ⟨moved, effect⟩, advanced, performed⟩ :=
        work_eq_some.mp stepped
      rcases (performed_of_perform performed).job found with
        ⟨cancel, job, same, rfl⟩ | ⟨holder, rfl, rfl⟩
      · exact .flagged cancel (by simp) same
      · rcases Worker.step_opens advanced with plain | ⟨start, rfl, opens⟩
        · cases plain
        · cases opens with
          | registers registering room =>
              exact .registered present registering room
                (performed_of_perform performed).warmSeq
  | request party request =>
      simp only [step] at stepped
      split at stepped
      · contradiction
      · obtain ⟨created, asked, rfl⟩ := Option.map_eq_some_iff.mp stepped
        exact .stays (by simp) found
  | cancel cancelled =>
      cases stepped
      by_cases own : order = cancelled
      · subst own
        have same := (Function.update_self _ _ _).symm.trans found
        obtain ⟨earlier, present, rfl⟩ := Option.map_eq_some_iff.mp same
        exact .flagged true (by simp) present
      · exact .stays (by simp)
          ((Function.update_of_ne own _ _).symm.trans found)
  | shutdown =>
      cases stepped
      obtain ⟨earlier, present, rfl⟩ := Option.map_eq_some_iff.mp found
      exact .flagged true (by simp) present
  | background op =>
      simp only [step] at stepped
      split at stepped
      · cases stepped
        exact .stays (by simp) found
      · contradiction

/-- What a process keeps until it ends. -/
structure Continues (service next : Service Document) : Prop where
  bootId : next.bootId = service.bootId
  pastBootIds : next.pastBootIds = service.pastBootIds
  warmSeq : service.warmSeq ≤ next.warmSeq

theorem Performed.continues {effect : Effect}
    (performed : Performed service effect next) : Continues service next where
  bootId := performed.bootId
  pastBootIds := performed.pastBootIds
  warmSeq := by
    rw [performed.warmSeq]
    cases effect <;> simp [Effect.onSeq]

def Label.isBoot : Label Document → Bool
  | .boot _ _ _ => true
  | _ => false

/-- Either the process goes on, or another one starts. -/
theorem continues_or_boot (stepped : step env service label = some next) :
    (Continues service next ∧ label.isBoot = false) ∨
      ∃ deferred evicted bootId,
      label = .boot deferred evicted bootId ∧
        freshBootId service bootId = true ∧
        next = service.booted env deferred evicted bootId := by
  cases label with
  | config label =>
      simp only [step] at stepped
      split at stepped
      · obtain ⟨app, _, rfl⟩ := Option.map_eq_some_iff.mp stepped
        exact .inl ⟨⟨rfl, rfl, le_refl _⟩, rfl⟩
      · contradiction
  | boot deferred evicted bootId =>
      simp only [step] at stepped
      split at stepped
      · next fresh =>
        cases stepped
        exact .inr ⟨deferred, evicted, bootId, rfl, fresh, rfl⟩
      · contradiction
  | drive order event =>
      obtain ⟨job, _, ⟨moved, effect⟩, _, performed⟩ :=
        drive_eq_some.mp stepped
      have goes := (performed_of_perform performed).continues
      exact .inl ⟨⟨goes.bootId, goes.pastBootIds, goes.warmSeq⟩, rfl⟩
  | work party event =>
      obtain ⟨worker, _, ⟨moved, effect⟩, _, performed⟩ :=
        work_eq_some.mp stepped
      have goes := (performed_of_perform performed).continues
      exact .inl ⟨⟨goes.bootId, goes.pastBootIds, goes.warmSeq⟩, rfl⟩
  | request party request =>
      simp only [step] at stepped
      split at stepped
      · contradiction
      · obtain ⟨created, _, rfl⟩ := Option.map_eq_some_iff.mp stepped
        exact .inl ⟨⟨rfl, rfl, le_refl _⟩, rfl⟩
  | cancel order =>
      cases stepped
      exact .inl ⟨⟨rfl, rfl, le_refl _⟩, rfl⟩
  | shutdown =>
      cases stepped
      exact .inl ⟨⟨rfl, rfl, le_refl _⟩, rfl⟩
  | background op =>
      simp only [step] at stepped
      split at stepped
      · cases stepped
        exact .inl ⟨⟨rfl, rfl, le_refl _⟩, rfl⟩
      · contradiction

end Parties

end ChartLocker.Warm
