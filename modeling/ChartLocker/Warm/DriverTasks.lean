import ChartLocker.Warm.Ownership

/-!
# The tasks of a driver

A driver spawns tasks into its set and joins all of them before it goes on:
no path leads out of the download, or out of the stage of the assets, with a
task left.  The verdict is shown after the last task has been joined.
-/

namespace ChartLocker.Warm

open Library Cache Catalog

variable {Document : Type}

section Steps

variable {env : Environment Document} {service : Service Document}

/-- The tile tasks of the job may be at work. -/
def RunPhase.joins : RunPhase → Bool
  | .enumerating | .permitting | .draining | .joining | .awaiting => true
  | .flushing _ _ _ resume => decide (resume ≠ .counting)
  | _ => false

/-- The driver is not in `stage_basemap_assets`. -/
def RunPhase.isTiles : RunPhase → Bool
  | .assets _ => false
  | _ => true

/-- The asset tasks of the stage may be at work. -/
def AssetStagePhase.joins : AssetStagePhase → Bool
  | .spawning | .draining | .joining => true
  | .flushing _ _ resume => decide (resume ≠ .ending)
  | _ => false

/-- A driver has joined its tasks before it goes on, and it shows a verdict
only afterwards. -/
structure WarmJob.Tidy (job : WarmJob) : Prop where
  set : job.phase.joins = false → job.set = []
  stage : ∀ stage, job.phase = .assets stage → stage.phase.joins = false →
    stage.set = []
  reported : job.state ≠ .running →
    job.phase = .releasing ∨ job.phase = .finished

def AssetProgress.set : AssetProgress → List Nat
  | .going stage => stage.set
  | _ => []

def AssetProgress.flag : AssetProgress → Option Unit
  | .going stage => stage.flag
  | _ => none

/-- What a driver spawns owns a permit and nothing else. -/
structure Worker.Fresh (order : Nat) (worker : Worker) : Prop where
  owner : worker.owner = some order
  permit : worker.holdsPermit = true
  flight : worker.flight = none
  tidy : worker.Tidy

/-- What a step of a driver does to its tasks and to the flag. -/
inductive Manages (service : Service Document) (order : Nat)
    (tasks later : List Nat) (flag after : Option Unit) : Effect → Prop where
  | keeps {effect : Effect} (plain : effect.isPlain = true)
      (same : later = tasks) (flags : after = flag) :
      Manages service order tasks later flag after effect
  | spawns (id : Nat) (worker : Worker) (fresh : worker.Fresh order)
      (same : later = id :: tasks) (flags : after = flag) :
      Manages service order tasks later flag after (.spawn id worker)
  | takes (id : Nat) (worker : Worker)
      (found : service.workers id = some worker) (member : id ∈ tasks)
      (ended : worker.holdsPermit = false)
      (same : later = tasks.filter (· ≠ id)) (flags : after = flag) :
      Manages service order tasks later flag after (.take id)
  | holds (same : later = tasks) (free : flag = none)
      (taken : after = some ()) :
      Manages service order tasks later flag after .holdAssets
  | frees (same : later = tasks) (held : flag = some ())
      (freed : after = none) :
      Manages service order tasks later flag after .freeAssets

theorem Resume.joins_phase {resume : Resume} (tail : resume ≠ .counting) :
    resume.phase.joins = true := by
  cases resume with
  | counting => exact absurd rfl tail
  | _ => rfl

namespace AssetStage

variable {job : WarmJob} {stage later : AssetStage} {event : Event}
  {progress : AssetProgress} {effect : Effect}

/-- How the stage leaves a step, and what it does to its tasks and to the
flag. -/
def Steps (service : Service Document) (order : Nat) (stage : AssetStage)
    (progress : AssetProgress) (effect : Effect) : Prop :=
  Manages service order stage.set progress.set stage.flag progress.flag
    effect ∧
  ∀ later, progress = .going later → later.phase.joins = false →
    later.set = []

theorem flag_eq (begun : stage.phase ≠ .waiting) : stage.flag = some () := by
  unfold flag
  split
  · next waiting => exact absurd waiting begun
  · rfl

theorem steps_plain {order : Nat} (plain : effect.isPlain = true)
    (set : later.set = stage.set) (begun : stage.phase ≠ .waiting)
    (goes : later.phase ≠ .waiting)
    (joins : later.phase.joins = true ∨ stage.set = []) :
    Steps service order stage (.going later) effect := by
  refine ⟨.keeps plain set ?_, fun other same unjoined => ?_⟩
  · exact (flag_eq goes).trans (flag_eq begun).symm
  · cases same
    rw [set]
    exact joins.resolve_left (by rw [unjoined]; decide)

theorem resume_ne_waiting (resume : AssetResume) :
    resume.phase ≠ .waiting ∧ resume.stopPhase ≠ .waiting := by
  cases resume <;> simp [AssetResume.phase, AssetResume.stopPhase]

theorem resume_joins (resume : AssetResume)
    (tidy : resume = .ending → stage.set = []) :
    (resume.phase.joins = true ∨ stage.set = []) ∧
      (resume.stopPhase.joins = true ∨ stage.set = []) := by
  cases resume with
  | ending => exact ⟨.inr (tidy rfl), .inr (tidy rfl)⟩
  | _ => exact ⟨.inl rfl, .inl rfl⟩

/-- Where `accept_asset` leaves the stage. -/
theorem accept_spec (cap : Int) {resume : AssetResume}
    (apart : resume ≠ .ending)
    (result : Option (Except AssetStop (Option WarmRow))) :
    (stage.accept cap resume result).set = stage.set ∧
      (stage.accept cap resume result).phase.joins = true ∧
      (stage.accept cap resume result).phase ≠ .waiting := by
  have joins : resume.phase.joins = true := by
    cases resume with
    | ending => exact absurd rfl apart
    | _ => rfl
  have begun := (resume_ne_waiting resume).1
  unfold accept
  split
  · dsimp only
    split
    · exact ⟨rfl, decide_eq_true apart, by simp⟩
    · exact ⟨rfl, joins, begun⟩
  · exact ⟨rfl, joins, begun⟩
  · exact ⟨rfl, rfl, by simp [stopAt]⟩
  · exact ⟨rfl, rfl, by simp [stopAt]⟩

theorem steps_takes {order id : Nat} (member : id ∈ stage.set)
    {result : Option (Except AssetStop (Option WarmRow))}
    (found : finishedTask service id = some result)
    (begun : stage.phase ≠ .waiting)
    (set : later.set = stage.set.filter (· ≠ id))
    (joins : later.phase.joins = true) (goes : later.phase ≠ .waiting) :
    Steps service order stage (.going later) (.take id) := by
  obtain ⟨task, present, finished⟩ := finishedAsset_eq_some.mp found
  refine ⟨.takes id _ present member ?_ set ?_, fun other same unjoined => ?_⟩
  · simp [Worker.holdsPermit, finished, AssetPhase.working]
  · exact (flag_eq goes).trans (flag_eq begun).symm
  · cases same
    exact Bool.noConfusion (unjoined.symm.trans joins)

theorem steps_stopped {order : Nat} {reason : AssetStop}
    (begun : stage.phase ≠ .waiting) (empty : stage.set = []) :
    Steps service order stage (.stopped reason) .freeAssets :=
  ⟨.frees empty.symm (flag_eq begun) rfl, fun _ same => nomatch same⟩

/-- A step while asset tasks may be at work. -/
theorem steps_of_working (working : stage.phase.joins = true)
    (stepped : stage.step env service job event = some (progress, effect)) :
    Steps service job.order stage progress effect := by
  have begun : stage.phase ≠ .waiting := by
    intro waiting
    simp [waiting, AssetStagePhase.joins] at working
  simp only [step] at stepped
  split at stepped
  -- The phases without tasks.
  all_goals try solve
    | simp [AssetStagePhase.joins, *] at working
  · next id spawning =>
    split at stepped
    · cases stepped
      refine ⟨.spawns id _ ⟨rfl, rfl, rfl, trivial⟩ rfl ?_,
        fun _ same unjoined => ?_⟩
      · exact (flag_eq begun).symm
      · cases same
        exact Bool.noConfusion unjoined
    · contradiction
  · split at stepped
    · cases stepped
      exact steps_plain rfl rfl begun (by simp [stopAt]) (.inl rfl)
    · contradiction
  · split at stepped
    · cases stepped
      exact steps_plain rfl rfl begun (by simp [enter]) (.inl rfl)
    · contradiction
  · next id draining =>
    split at stepped
    · next member =>
      obtain ⟨result, found, same⟩ := Option.map_eq_some_iff.mp stepped
      cases same
      obtain ⟨set, joins, goes⟩ := @accept_spec
        { stage with set := stage.set.filter (· ≠ id) } service.capBytes
        .draining (by decide) result
      exact steps_takes member found begun set joins goes
    · contradiction
  · cases stepped
    exact steps_plain rfl rfl begun (by simp [enter]) (.inl rfl)
  · -- The rows are written.
    next rows cap resume disk now flushing =>
    obtain ⟨phase, stopPhase⟩ := resume_ne_waiting resume
    obtain ⟨joins, stops⟩ := @resume_joins stage resume fun ending => by
      simp [flushing, ending, AssetStagePhase.joins] at working
    cases stepped
    split
    · exact steps_plain rfl rfl begun stopPhase stops
    · exact steps_plain rfl rfl begun phase joins
  · -- The rows are lost.
    next rows cap resume flushing =>
    obtain ⟨joins, stops⟩ := @resume_joins stage resume fun ending => by
      simp [flushing, ending, AssetStagePhase.joins] at working
    cases stepped
    exact steps_plain rfl rfl begun (resume_ne_waiting resume).2 stops
  · next id joining =>
    split at stepped
    · next member =>
      obtain ⟨result, found, same⟩ := Option.map_eq_some_iff.mp stepped
      cases same
      split
      · obtain ⟨set, joins, goes⟩ := @accept_spec
          { stage with set := stage.set.filter (· ≠ id) } service.capBytes
          .joining (by decide) result
        exact steps_takes member found begun set joins goes
      · exact steps_takes member found begun rfl rfl (by simp [enter])
    · contradiction
  · split at stepped
    · next empty =>
      cases stepped
      exact steps_plain rfl rfl begun (by simp [enter]) (.inr empty)
    · contradiction
  · contradiction

/-- A step of a stage which has no task. -/
theorem steps_of_idle (idle : stage.phase.joins = false)
    (empty : stage.set = [])
    (stepped : stage.step env service job event = some (progress, effect)) :
    Steps service job.order stage progress effect := by
  simp only [step] at stepped
  split at stepped
  -- The phases with tasks.
  all_goals try solve
    | simp [AssetStagePhase.joins, *] at idle
  · -- Another driver may hold the flag.
    next waiting =>
    have free : stage.flag = none := by simp [flag, waiting]
    repeat' split at stepped
    · cases stepped
      refine ⟨.holds rfl free rfl, fun _ same _ => ?_⟩
      cases same
      exact empty
    · cases stepped
      refine ⟨.keeps rfl empty.symm free.symm, fun _ same => ?_⟩
      cases same
    · cases stepped
      refine ⟨.keeps rfl rfl rfl, fun _ same _ => ?_⟩
      cases same
      exact empty
  · next flagged =>
    have begun : stage.phase ≠ .waiting := by simp [flagged]
    split at stepped
    · cases stepped
      exact steps_stopped begun empty
    · cases stepped
      exact steps_plain rfl rfl begun (by simp [enter]) (.inr empty)
  · next crediting =>
    cases stepped
    exact steps_plain rfl rfl (by simp [crediting]) (by simp [enter])
      (.inr empty)
  · next crediting =>
    cases stepped
    exact steps_plain rfl rfl (by simp [crediting]) (by simp [enter])
      (.inr empty)
  · next budgeting =>
    cases stepped
    exact steps_plain rfl rfl (by simp [budgeting]) (by simp) (.inr empty)
  · next listing =>
    have begun : stage.phase ≠ .waiting := by simp [listing]
    split at stepped
    · cases stepped
      exact steps_plain rfl rfl begun (by simp) (.inr empty)
    · cases stepped
      exact steps_stopped begun empty
  · next listing =>
    cases stepped
    exact steps_plain rfl rfl (by simp [listing]) (by simp [enter])
      (.inr empty)
  · next rows cap resume disk now flushing =>
    have begun : stage.phase ≠ .waiting := by simp [flushing]
    obtain ⟨phase, stopPhase⟩ := resume_ne_waiting resume
    cases stepped
    split
    · exact steps_plain rfl rfl begun stopPhase (.inr empty)
    · exact steps_plain rfl rfl begun phase (.inr empty)
  · next rows cap resume flushing =>
    cases stepped
    exact steps_plain rfl rfl (by simp [flushing])
      (resume_ne_waiting resume).2 (.inr empty)
  · next tail =>
    have begun : stage.phase ≠ .waiting := by simp [tail]
    repeat' split at stepped
    · cases stepped
      exact steps_plain rfl rfl begun (by simp [stopAt]) (.inr empty)
    · cases stepped
      exact steps_plain rfl rfl begun (by simp) (.inr empty)
    · cases stepped
      exact steps_plain rfl rfl begun (by simp [enter]) (.inr empty)
  · next ending =>
    have begun : stage.phase ≠ .waiting := by simp [ending]
    split at stepped
    · cases stepped
      refine ⟨.frees empty.symm (flag_eq begun) rfl, fun _ same => ?_⟩
      cases same
    · cases stepped
      exact steps_plain rfl rfl begun (by simp [enter]) (.inr empty)
  · next cleaning =>
    cases stepped
    exact steps_plain rfl rfl (by simp [cleaning]) (by simp [enter])
      (.inr empty)
  · next cleaning =>
    cases stepped
    exact steps_plain rfl rfl (by simp [cleaning]) (by simp [enter])
      (.inr empty)
  · next releasing =>
    cases stepped
    exact steps_stopped (by simp [releasing]) empty
  · contradiction

theorem step_steps (tidy : stage.phase.joins = false → stage.set = [])
    (stepped : stage.step env service job event = some (progress, effect)) :
    Steps service job.order stage progress effect := by
  cases working : stage.phase.joins with
  | true => exact steps_of_working working stepped
  | false => exact steps_of_idle working (tidy working) stepped

end AssetStage

namespace WarmJob

variable {job moved : WarmJob} {event : Event} {effect : Effect}

/-- How the driver leaves a step, and what it does to its tasks and to the
flag. -/
def Steps (service : Service Document) (job moved : WarmJob)
    (effect : Effect) : Prop :=
  Manages service job.order job.tasks moved.tasks job.assetsFlag
    moved.assetsFlag effect ∧ moved.Tidy

theorem tasks_of_tiles (tiles : job.phase.isTiles = true) :
    job.tasks = job.set ∧ job.assetsFlag = none := by
  unfold tasks assetsFlag
  cases phase : job.phase with
  | assets stage => simp [phase, RunPhase.isTiles] at tiles
  | _ => exact ⟨rfl, rfl⟩

theorem tidy_of_tiles (tiles : moved.phase.isTiles = true)
    (set : moved.phase.joins = false → moved.set = [])
    (reported : moved.state ≠ .running →
      moved.phase = .releasing ∨ moved.phase = .finished) : moved.Tidy := by
  refine ⟨set, fun stage staging => ?_, reported⟩
  rw [staging] at tiles
  cases tiles

theorem Tidy.running (tidy : job.Tidy) (before : job.phase ≠ .releasing)
    (working : job.phase ≠ .finished) : job.state = .running := by
  by_contra verdict
  exact (tidy.reported verdict).elim before working

theorem steps_plain (plain : effect.isPlain = true)
    (before : job.phase.isTiles = true) (after : moved.phase.isTiles = true)
    (set : moved.set = job.set)
    (joins : moved.phase.joins = true ∨ job.set = [])
    (reported : moved.state ≠ .running →
      moved.phase = .releasing ∨ moved.phase = .finished) :
    Steps service job moved effect := by
  obtain ⟨tasks, flag⟩ := tasks_of_tiles before
  obtain ⟨later, unflagged⟩ := tasks_of_tiles after
  refine ⟨.keeps plain ?_ (unflagged.trans flag.symm),
    tidy_of_tiles after (fun unjoined => ?_) reported⟩
  · rw [later, tasks, set]
  · rw [set]
    exact joins.resolve_left (by rw [unjoined]; decide)

/-- The driver goes on joining its tile tasks. -/
structure Joins (job moved : WarmJob) : Prop where
  set : moved.set = job.set
  state : moved.state = job.state
  tiles : moved.phase.isTiles = true
  joins : moved.phase.joins = true

theorem resume_tiles (resume : Resume) : resume.phase.isTiles = true := by
  cases resume <;> rfl

theorem joins_accumulate {resume : Resume} (apart : resume ≠ .counting)
    (fetched : Fetched) :
    job.Joins (job.accumulate service resume fetched) := by
  have joins := Resume.joins_phase apart
  have tiles := resume_tiles resume
  cases fetched with
  | tile row | negative row =>
      simp only [accumulate]
      split
      · exact ⟨rfl, rfl, rfl, decide_eq_true apart⟩
      · exact ⟨rfl, rfl, tiles, joins⟩
  | skipped | error => exact ⟨rfl, rfl, tiles, joins⟩
  | capped | cancelled => exact ⟨rfl, rfl, rfl, rfl⟩

theorem joins_drained (result : Option Fetched) :
    job.Joins (job.drained service result) := by
  cases result with
  | some fetched => exact joins_accumulate (by decide) fetched
  | none => exact ⟨rfl, rfl, rfl, rfl⟩

theorem joins_joinedTask (result : Option Fetched) :
    job.Joins (job.joinedTask service result) := by
  cases result with
  | some fetched =>
      simp only [joinedTask]
      split
      · exact joins_accumulate (by decide) fetched
      · exact ⟨rfl, rfl, rfl, rfl⟩
  | none => exact ⟨rfl, rfl, rfl, rfl⟩

theorem steps_takes {id : Nat} {result : Option Fetched}
    (before : job.phase.isTiles = true) (running : job.state = .running)
    (member : id ∈ job.set)
    (found : finishedTask service id = some result)
    (joins : (job.withoutTask id).Joins moved) :
    Steps service job moved (.take id) := by
  obtain ⟨task, present, finished⟩ := finishedTask_eq_some.mp found
  obtain ⟨tasks, flag⟩ := tasks_of_tiles before
  obtain ⟨later, unflagged⟩ := tasks_of_tiles joins.tiles
  refine ⟨.takes id _ present (by rw [tasks]; exact member) ?_ ?_
    (unflagged.trans flag.symm), tidy_of_tiles joins.tiles ?_ ?_⟩
  · simp [Worker.holdsPermit, finished, TilePhase.working]
  · rw [later, tasks, joins.set]
    rfl
  · intro unjoined
    exact Bool.noConfusion (unjoined.symm.trans joins.joins)
  · intro verdict
    exact absurd (joins.state.trans running) verdict

theorem joins_flushed (resume : Resume) (outcome : PutManyOutcome) :
    (job.flushed resume outcome).set = job.set ∧
      (job.flushed resume outcome).state = job.state ∧
      (job.flushed resume outcome).phase.isTiles = true ∧
      (resume ≠ .counting →
        (job.flushed resume outcome).phase.joins = true) := by
  unfold flushed
  dsimp only
  split
  · cases resume with
    | counting => exact ⟨rfl, rfl, rfl, fun apart => absurd rfl apart⟩
    | _ => exact ⟨rfl, rfl, rfl, fun _ => rfl⟩
  · exact ⟨rfl, rfl, resume_tiles resume, Resume.joins_phase⟩

theorem steps_abort (before : job.phase.isTiles = true)
    (empty : job.set = []) : Steps service job job.abort .quiet :=
  steps_plain rfl before rfl rfl (.inr empty) fun _ => .inl rfl

/-- The checks of the driver write the verdict alone. -/
theorem checked_spec : ∀ checked ∈ [job.checkErrors,
    job.checkGeneration service,
    job.checkErrors.checkComplete.checkGeneration service],
    checked.set = job.set ∧ checked.state = job.state ∧
      checked.phase = job.phase := by
  have errors : ∀ checked : WarmJob, checked.checkErrors.set = checked.set ∧
      checked.checkErrors.state = checked.state ∧
      checked.checkErrors.phase = checked.phase := by
    intro checked
    unfold checkErrors
    split <;> exact ⟨rfl, rfl, rfl⟩
  have complete : ∀ checked : WarmJob,
      checked.checkComplete.set = checked.set ∧
      checked.checkComplete.state = checked.state ∧
      checked.checkComplete.phase = checked.phase := by
    intro checked
    unfold checkComplete
    split <;> exact ⟨rfl, rfl, rfl⟩
  have generation : ∀ checked : WarmJob,
      (checked.checkGeneration service).set = checked.set ∧
      (checked.checkGeneration service).state = checked.state ∧
      (checked.checkGeneration service).phase = checked.phase := by
    intro checked
    unfold checkGeneration
    split <;> exact ⟨rfl, rfl, rfl⟩
  intro checked member
  simp only [List.mem_cons, List.not_mem_nil, or_false] at member
  rcases member with rfl | rfl | rfl
  · exact errors job
  · exact generation job
  · obtain ⟨set, state, phase⟩ := generation job.checkErrors.checkComplete
    obtain ⟨sets, states, phases⟩ := complete job.checkErrors
    obtain ⟨first, second, third⟩ := errors job
    exact ⟨set.trans (sets.trans first), state.trans (states.trans second),
      phase.trans (phases.trans third)⟩

theorem steps_conclude {checked : WarmJob} (plain : effect.isPlain = true)
    (before : job.phase.isTiles = true) (empty : job.set = [])
    (set : checked.set = job.set) (running : checked.state = .running) :
    Steps service job checked.conclude effect := by
  unfold conclude
  split
  · exact steps_plain plain before rfl set (.inr empty)
      fun verdict => absurd running verdict
  · exact steps_plain plain before rfl set (.inr empty)
      fun verdict => absurd running verdict

theorem steps_assets {stage : AssetStage} (staging : job.phase = .assets stage)
    (tidy : job.Tidy) (stepped : job.step env service event =
      some (moved, effect)) : Steps service job moved effect := by
  have running : job.state = .running :=
    tidy.running (by simp [staging]) (by simp [staging])
  have empty : job.set = [] := tidy.set (by rw [staging]; rfl)
  have tasks : job.tasks = stage.set := by simp [WarmJob.tasks, staging]
  have flag : job.assetsFlag = stage.flag := by
    simp [assetsFlag, staging]
  simp only [step, staging] at stepped
  obtain ⟨⟨progress, done⟩, advanced, same⟩ :=
    Option.map_eq_some_iff.mp stepped
  cases same
  obtain ⟨manages, later⟩ :=
    AssetStage.step_steps (tidy.stage stage staging) advanced
  unfold Steps
  rw [tasks, flag]
  cases progress with
  | going next =>
      refine ⟨manages, fun _ => empty, fun other same => ?_,
        fun verdict => absurd running verdict⟩
      cases same
      exact later next rfl
  | staged =>
      have unset : AssetProgress.staged.set = job.set := empty.symm
      rw [unset] at manages
      exact ⟨manages, tidy_of_tiles rfl (fun _ => empty)
        fun verdict => absurd running verdict⟩
  | stopped reason =>
      have unset : (AssetProgress.stopped reason).set = job.set := empty.symm
      rw [unset] at manages
      have stopped : (job.assetsStopped reason).set = job.set ∧
          (job.assetsStopped reason).state = job.state ∧
          (job.assetsStopped reason).phase = .replacing := by
        unfold assetsStopped
        split
        · exact ⟨rfl, rfl, rfl⟩
        · cases reason <;> exact ⟨rfl, rfl, rfl⟩
      obtain ⟨set, state, phase⟩ := stopped
      have tiles : (job.assetsStopped reason).phase.isTiles = true := by
        rw [phase]
        rfl
      obtain ⟨after, unflagged⟩ := tasks_of_tiles tiles
      dsimp only
      rw [after, unflagged, set]
      exact ⟨manages, tidy_of_tiles tiles (fun _ => set.trans empty)
        fun verdict => absurd (state.trans running) verdict⟩

theorem steps_running (tiles : job.phase.isTiles = true)
    (running : job.state = .running) (plain : effect.isPlain = true)
    (after : moved.phase.isTiles = true) (set : moved.set = job.set)
    (state : moved.state = job.state)
    (joins : moved.phase.joins = true ∨ job.set = []) :
    Steps service job moved effect :=
  steps_plain plain tiles after set joins fun verdict =>
    absurd (state.trans running) verdict

/-- The driver takes the result of a tile task. -/
theorem steps_joined {id : Nat} {after : Option Fetched → WarmJob}
    (tiles : job.phase.isTiles = true) (running : job.state = .running)
    (joins : ∀ result, (job.withoutTask id).Joins (after result))
    (stepped : (if id ∈ job.set then
      (finishedTask service id).map fun result =>
        (after result, Effect.take id)
      else none) = some (moved, effect)) :
    Steps service job moved effect := by
  split at stepped
  · next member =>
    obtain ⟨result, found, same⟩ := Option.map_eq_some_iff.mp stepped
    cases same
    exact steps_takes tiles running member found (joins result)
  · contradiction

/-- A step while tile tasks may be at work. -/
theorem steps_of_working (tidy : job.Tidy)
    (working : job.phase.joins = true)
    (stepped : job.step env service event = some (moved, effect)) :
    Steps service job moved effect := by
  have tiles : job.phase.isTiles = true := by
    cases phase : job.phase with
    | assets stage => simp [phase, RunPhase.joins] at working
    | _ => rfl
  have running : job.state = .running := by
    apply tidy.running
    · intro ended
      simp [ended, RunPhase.joins] at working
    · intro ended
      simp [ended, RunPhase.joins] at working
  simp only [step] at stepped
  split at stepped
  -- The phases without tasks.
  all_goals try solve
    | simp [RunPhase.joins, *] at working
  · -- The enumeration.
    repeat' split at stepped
    all_goals
      cases stepped
      exact steps_running tiles running rfl rfl rfl rfl (.inl rfl)
  · -- A task is spawned.
    next id permitting =>
    split at stepped
    · cases stepped
      obtain ⟨tasks, flag⟩ := tasks_of_tiles tiles
      refine ⟨.spawns id _ ⟨rfl, rfl, rfl, fun _ => rfl⟩ ?_ flag.symm,
        tidy_of_tiles rfl (fun unjoined => Bool.noConfusion unjoined)
          fun verdict => absurd running verdict⟩
      rw [tasks]
      rfl
    · contradiction
  · -- No permit.
    repeat' split at stepped
    all_goals first | contradiction | cases stepped
    all_goals exact steps_running tiles running rfl rfl rfl rfl (.inl rfl)
  · exact steps_joined tiles running joins_drained stepped
  · cases stepped
    exact steps_running tiles running rfl rfl rfl rfl (.inl rfl)
  · -- The rows are written.
    next rows budget cap resume disk now flushing =>
    have apart : resume ≠ .counting := by
      simpa [flushing, RunPhase.joins] using working
    cases stepped
    obtain ⟨set, state, after, joins⟩ := @joins_flushed job resume
      (service.cache.putManyPinned disk rows budget cap job.storage now).1
    exact steps_running tiles running rfl after set state (.inl (joins apart))
  · -- The rows are lost.
    next rows budget cap resume flushing =>
    have apart : resume ≠ .counting := by
      simpa [flushing, RunPhase.joins] using working
    cases stepped
    exact steps_running tiles running rfl (resume_tiles resume) rfl rfl
      (.inl (Resume.joins_phase apart))
  · split at stepped <;> cases stepped
    · exact steps_running tiles running rfl rfl rfl rfl (.inl rfl)
    · exact steps_running tiles running rfl rfl rfl rfl (.inl rfl)
  · exact steps_joined tiles running joins_joinedTask stepped
  · cases stepped
    exact steps_running tiles running rfl rfl rfl rfl (.inl rfl)
  · -- Every task has been joined.
    split at stepped
    · next empty =>
      cases stepped
      exact steps_running tiles running rfl rfl rfl rfl (.inr empty)
    · contradiction
  · contradiction

/-- A step of a driver which has no task. -/
theorem steps_of_idle (tidy : job.Tidy) (tiles : job.phase.isTiles = true)
    (idle : job.phase.joins = false)
    (stepped : job.step env service event = some (moved, effect)) :
    Steps service job moved effect := by
  have empty : job.set = [] := tidy.set idle
  -- A step to a phase which shows no verdict.
  have goes : ∀ {later : WarmJob} {done : Effect}, done.isPlain = true →
      later.phase.isTiles = true → later.set = job.set →
      later.state = job.state → job.phase ≠ .releasing ∧
      job.phase ≠ .finished → Steps service job later done := by
    intro later done plain after set state working
    exact steps_running tiles (tidy.running working.1 working.2) plain after
      set state (.inr empty)
  simp only [step] at stepped
  split at stepped
  -- The phases with tasks, and the steps which only write other locals.
  all_goals try solve
    | simp [RunPhase.joins, *] at idle
    | (cases stepped; refine goes rfl rfl rfl rfl ?_; simp [*])
  · next checking =>
    split at stepped <;> cases stepped
    · exact steps_abort tiles empty
    · exact goes rfl rfl rfl rfl (by simp [checking])
  · next expanding =>
    split at stepped <;> cases stepped
    exact goes rfl rfl rfl rfl (by simp [expanding])
  · next expanding =>
    repeat' split at stepped
    all_goals first | contradiction | cases stepped
    · exact goes rfl rfl rfl rfl (by simp [expanding])
    · exact steps_plain rfl tiles rfl rfl (.inr empty) fun _ => .inl rfl
    · exact steps_plain rfl tiles rfl rfl (.inr empty) fun _ => .inl rfl
  · next expanding =>
    split at stepped <;> cases stepped
    · exact steps_plain rfl tiles rfl rfl (.inr empty) fun _ => .inl rfl
    · exact goes rfl rfl rfl rfl (by simp [expanding])
  · next gating =>
    split at stepped <;> cases stepped
    · exact steps_plain rfl tiles rfl rfl (.inr empty) fun _ => .inl rfl
    · exact goes rfl rfl rfl rfl (by simp [gating])
  · next rows budget cap resume disk now flushing =>
    cases stepped
    obtain ⟨set, state, after, _⟩ := @joins_flushed job resume
      (service.cache.putManyPinned disk rows budget cap job.storage now).1
    exact goes rfl after set state (by simp [flushing])
  · next rows budget cap resume flushing =>
    cases stepped
    exact goes rfl (resume_tiles resume) rfl rfl (by simp [flushing])
  · next tail =>
    obtain ⟨set, state, _⟩ := @checked_spec _ service job _
      List.mem_cons_self
    split at stepped <;> cases stepped
    · exact goes rfl rfl set state (by simp [tail])
    · exact goes rfl rfl set state (by simp [tail])
  · next counting =>
    obtain ⟨set, state, _⟩ := @checked_spec _ service job
      (job.checkErrors.checkComplete.checkGeneration service) (by simp)
    have running : job.state = .running :=
      tidy.running (by simp [counting]) (by simp [counting])
    split at stepped <;> cases stepped
    · -- The stage begins without tasks and without the flag.
      obtain ⟨tasks, flag⟩ := tasks_of_tiles tiles
      refine ⟨.keeps rfl ?_ flag.symm, fun _ => set.trans empty,
        fun stage same _ => ?_, fun verdict =>
          absurd (state.trans running) verdict⟩
      · rw [tasks, empty]
        rfl
      · cases same
        rfl
    · exact goes rfl rfl set state (by simp [counting])
  · next staging => simp [staging, RunPhase.isTiles] at tiles
  · next replacing =>
    obtain ⟨set, state, _⟩ := @checked_spec _ service job
      (job.checkGeneration service) (by simp)
    have running : job.state = .running :=
      tidy.running (by simp [replacing]) (by simp [replacing])
    split at stepped <;> cases stepped
    · exact goes rfl rfl set state (by simp [replacing])
    · exact steps_conclude rfl tiles empty set (state.trans running)
  · next guarded =>
    obtain ⟨set, state, _⟩ := @checked_spec _ service job
      (job.checkGeneration service) (by simp)
    split at stepped <;> cases stepped
    · exact goes rfl rfl set state (by simp [guarded])
    · exact goes rfl rfl set state (by simp [guarded])
  · next unlocking =>
    cases stepped
    exact steps_conclude rfl tiles empty rfl
      (tidy.running (by simp [unlocking]) (by simp [unlocking]))
  · cases stepped
    exact steps_plain rfl tiles rfl rfl (.inr empty) fun _ => .inl rfl
  · cases stepped
    exact steps_plain rfl tiles rfl rfl (.inr empty) fun _ => .inr rfl
  · contradiction

theorem step_steps (tidy : job.Tidy)
    (stepped : job.step env service event = some (moved, effect)) :
    Steps service job moved effect := by
  cases working : job.phase.joins with
  | true => exact steps_of_working tidy working stepped
  | false =>
    cases phase : job.phase with
    | assets stage => exact steps_assets phase tidy stepped
    | _ => exact steps_of_idle tidy (by rw [phase]; rfl) working stepped

end WarmJob

end Steps

end ChartLocker.Warm
