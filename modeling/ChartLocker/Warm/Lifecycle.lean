import ChartLocker.Library.Lease
import ChartLocker.Warm.Origins

/-!
# The regions of the warm jobs

`start_warm` reserves the region of its request and hands it to the job which
it registers; the driver of the job releases it as its last act.  The regions
are a registry of exclusive resources, and every step of the service is a step
of that registry or leaves one of them behind.
-/

namespace ChartLocker.Warm

open Library Cache Catalog

variable {Document : Type}

/-! ## Owners -/

inductive RegionOwner where
  | start (id : Nat)
  | job (order : Nat)
deriving DecidableEq, Repr

/-- The region which a request has reserved. -/
def Start.region (start : Start) : Option String :=
  match start.phase with
  | .registering _ _ _ => start.request.regionId
  | _ => none

def Worker.region : Worker → Option String
  | .start pending => pending.region
  | _ => none

/-- The region of a job until its driver has returned. -/
def WarmJob.region (job : WarmJob) : Option String :=
  match job.phase with
  | .finished => none
  | _ => job.regionId

namespace Service

variable (service : Service Document)

def regionOf : RegionOwner → Option String
  | .start id => (service.workers id).bind Worker.region
  | .job order => (service.warmJobs order).bind WarmJob.region

def regions : Registry String RegionOwner where
  held region := region ∈ service.activeWarmRegions
  owned := service.regionOf

end Service

/-! ## Steps of the parties -/

/-- An effect which touches no region and no owner of one. -/
def Effect.Neutral (service : Service Document) : Effect → Prop
  | .spawn _ worker => worker.region = none
  | .take id => (service.workers id).bind Worker.region = none
  | .reserveRegion _ | .releaseRegion _ | .register _ _ | .refuse _ _ => False
  | _ => True

/-- A driver takes and spawns tasks only, which have no region. -/
theorem Effect.Driven.neutral {service : Service Document} {effect : Effect}
    (driven : effect.Driven service) : effect.Neutral service := by
  have region : ∀ worker : Worker, worker.isTask = true →
      worker.region = none := by
    intro worker task
    cases worker with
    | tile | asset => rfl
    | _ => cases task
  cases effect with
  | spawn id worker => exact region worker driven
  | take id =>
      obtain ⟨worker, found, task⟩ := (Option.any_eq_true _ _).mp driven
      simp [Effect.Neutral, found, region worker task]
  | reserveRegion | releaseRegion | register | refuse => exact driven
  | _ => trivial

theorem neutral_of_isLocal {service : Service Document} {effect : Effect}
    (plain : effect.isLocal = true) : effect.Neutral service := by
  cases effect <;> trivial

section Parties

variable {env : Environment Document} {service : Service Document}

/-- What a request for a warm does with its region. -/
inductive Start.Moves (service : Service Document) (start : Start) :
    Event → Option Start → Effect → Prop where
  | idles {event : Event} {next : Option Start} {effect : Effect}
      (before : start.region = none)
      (after : next.bind Start.region = none)
      (neutral : ∀ other : Service Document, effect.Neutral other) :
      Moves service start event next effect
  | reserves {event : Event} {next : Start} (region : String)
      (before : start.region = none)
      (free : region ∉ service.activeWarmRegions)
      (after : next.region = some region) :
      Moves service start event (some next) (.reserveRegion region)
  | registers {event : Event} (holder : Nat) (resolved : List ChartSource)
      (total : Nat) (before : start.region = start.request.regionId)
      (room : service.runningJobs < maxActiveWarmJobs)
      (kept : event ≠ .dropped) :
      Moves service start event none
        (.register holder (start.request.job service resolved total))
  | refuses {event : Event} (holder : Nat)
      (before : start.region = start.request.regionId)
      (kept : event ≠ .dropped) :
      Moves service start event none (.refuse holder start.request.regionId)
  | disappears (holder : Nat) :
      Moves service start .dropped none (.refuse holder none)

theorem Start.step_moves {start : Start} {event : Event}
    {next : Option Start} {effect : Effect}
    (stepped : start.step env service event = some (next, effect)) :
    start.Moves service event next effect := by
  simp only [Start.step] at stepped
  split at stepped
  · next holder waiting =>
    have before : start.region = none := by simp [Start.region, waiting]
    split at stepped
    · cases stepped
      exact .idles before rfl fun _ => trivial
    · cases stepped
      exact .idles before rfl fun _ => trivial
  · next holder resolved total reserving =>
    have before : start.region = none := by simp [Start.region, reserving]
    split at stepped
    · next region named =>
      split at stepped
      · cases stepped
        exact .idles before rfl fun _ => trivial
      · next free =>
        cases stepped
        exact .reserves region before free (by simp [Start.region, named])
    · next named =>
      cases stepped
      exact .idles before (by simp [Start.region, named]) fun _ => trivial
  · next holder resolved total registering =>
    have before : start.region = start.request.regionId := by
      simp [Start.region, registering]
    split at stepped
    · cases stepped
      exact .refuses holder before (by simp)
    · next room =>
      cases stepped
      exact .registers holder resolved total before (Nat.lt_of_not_le room)
        (by simp)
  · next holder resolved total registering =>
    cases stepped
    exact .refuses holder (by simp [Start.region, registering]) (by simp)
  · next waiting =>
    cases stepped
    exact .idles (by simp [Start.region, waiting]) rfl fun _ => trivial
  · next reserving =>
    cases stepped
    exact .idles (by simp [Start.region, reserving]) rfl fun _ => trivial
  · cases stepped
    exact .disappears _
  · contradiction

/-- A party other than a request for a warm has no region. -/
theorem Worker.step_region {worker : Worker} {next : Option Worker}
    {event : Event} {effect : Effect}
    (stepped : worker.step env service event = some (next, effect)) :
    (∃ start moved, worker = .start start ∧ next = moved.map .start ∧
      start.Moves service event moved effect) ∨
    (worker.region = none ∧ next.bind Worker.region = none ∧
      ∀ other : Service Document, effect.Neutral other) := by
  cases worker with
  | tile task =>
      obtain ⟨⟨_, _⟩, moved, same⟩ := Option.map_eq_some_iff.mp stepped
      cases same
      exact .inr ⟨rfl, rfl, fun _ =>
        neutral_of_isLocal (TileTask.step_local moved)⟩
  | asset task =>
      obtain ⟨⟨_, _⟩, moved, same⟩ := Option.map_eq_some_iff.mp stepped
      cases same
      exact .inr ⟨rfl, rfl, fun _ =>
        neutral_of_isLocal (AssetTask.step_local moved)⟩
  | live fetch =>
      obtain ⟨⟨after, _⟩, moved, same⟩ := Option.map_eq_some_iff.mp stepped
      cases same
      refine .inr ⟨rfl, ?_, fun _ =>
        neutral_of_isLocal (LiveFetch.step_local moved)⟩
      cases after <;> rfl
  | deletion pending =>
      obtain ⟨⟨after, _⟩, moved, same⟩ := Option.map_eq_some_iff.mp stepped
      cases same
      refine .inr ⟨rfl, ?_, fun _ =>
        neutral_of_isLocal (Deletion.step_local moved)⟩
      cases after <;> rfl
  | start pending =>
      obtain ⟨⟨after, _⟩, moved, same⟩ := Option.map_eq_some_iff.mp stepped
      cases same
      exact .inl ⟨pending, after, rfl, rfl, Start.step_moves moved⟩

end Parties

/-! ## Steps of the registry -/

section Registry

variable {service next : Service Document}

theorem regionOf_congr (workers : next.workers = service.workers)
    (warmJobs : next.warmJobs = service.warmJobs) :
    next.regionOf = service.regionOf := by
  funext owner
  cases owner <;> simp [Service.regionOf, workers, warmJobs]

theorem regionOf_setWorker (id : Nat) (worker : Option Worker) :
    (service.setWorker id worker).regionOf = Function.update
      service.regionOf (.start id) (worker.bind Worker.region) := by
  funext owner
  cases owner with
  | start other =>
      by_cases same : other = id
      · simp [Service.regionOf, Service.setWorker, same]
      · simp [Service.regionOf, Service.setWorker, same]
  | job order => simp [Service.regionOf, Service.setWorker]

theorem regionOf_setJob (order : Nat) (job : Option WarmJob) :
    (service.setJob order job).regionOf = Function.update
      service.regionOf (.job order) (job.bind WarmJob.region) := by
  funext owner
  cases owner with
  | start id => simp [Service.regionOf, Service.setJob]
  | job other =>
      by_cases same : other = order
      · simp [Service.regionOf, Service.setJob, same]
      · simp [Service.regionOf, Service.setJob, same]

theorem region_of_working {job : WarmJob} (working : job.phase ≠ .finished) :
    job.region = job.regionId := by
  unfold WarmJob.region
  split
  · next finished => exact absurd finished working
  · rfl

/-- A flag of a job says nothing about its region. -/
theorem region_cancel (job : WarmJob) (cancel : Bool) :
    WarmJob.region { job with cancel := cancel } = job.region :=
  rfl

theorem Performed.neutral {effect : Effect}
    (performed : Performed service effect next)
    (neutral : effect.Neutral service) :
    next.activeWarmRegions = service.activeWarmRegions ∧
      next.regionOf = service.regionOf := by
  have regions := performed.regions
  have workers := performed.workers
  have warmJobs := performed.warmJobs
  cases effect with
  | spawn id worker =>
      refine ⟨regions, ?_⟩
      have free := performed.freshTask id worker rfl
      have spawned : next.regionOf =
          (service.setWorker id (some worker)).regionOf :=
        regionOf_congr workers warmJobs
      rw [spawned, regionOf_setWorker]
      refine Function.update_eq_self_iff.mpr ?_
      have idle : worker.region = none := neutral
      simp [Service.regionOf, free, idle]
  | take id =>
      refine ⟨regions, ?_⟩
      have taken : next.regionOf = (service.setWorker id none).regionOf :=
        regionOf_congr workers warmJobs
      rw [taken, regionOf_setWorker]
      refine Function.update_eq_self_iff.mpr ?_
      simpa [Service.regionOf] using neutral.symm
  | cancelRegion regionId =>
      refine ⟨regions, funext fun owner => ?_⟩
      cases owner with
      | start id => simp [Service.regionOf, workers, Effect.onWorkers]
      | job order =>
          simp only [Service.regionOf, warmJobs, Effect.onJobs,
            Option.bind_map]
          congr 1
          funext job
          simp only [Function.comp]
          split
          · exact region_cancel job true
          · rfl
  | reserveRegion | releaseRegion | register | refuse => exact neutral.elim
  | _ => exact ⟨regions, regionOf_congr workers warmJobs⟩

/-- The owner of a region, or a party without one, gives it up. -/
theorem step_of_release {owner : RegionOwner} {released : Option String}
    (owns : service.regionOf owner = released)
    (regions : next.activeWarmRegions = released.elim
      service.activeWarmRegions fun id =>
        service.activeWarmRegions.filter (· ≠ id))
    (owned : next.regionOf =
      Function.update service.regionOf owner none) :
    Registry.Step service.regions next.regions := by
  cases released with
  | none =>
      refine .keeps (fun region => ?_) (owned.trans ?_)
      · exact iff_of_eq (congrArg (region ∈ ·) regions)
      · exact Function.update_eq_self_iff.mpr owns.symm
  | some region =>
      refine .releases owner region owns (fun other => ?_) owned
      simp [Service.regions, regions]

end Registry

/-- A request for a warm which has reserved a region disappears. -/
def LosesRegion (service : Service Document) : Label Document → Prop
  | .work id .dropped =>
      ∃ region, service.regionOf (.start id) = some region
  | _ => False

section Steps

variable {env : Environment Document} {service next : Service Document}

theorem drive_regions {order : Nat} {event : Event}
    (stepped : step env service (.drive order event) = some next) :
    Registry.Step service.regions next.regions := by
  obtain ⟨job, found, ⟨moved, effect⟩, advanced, performed⟩ :=
    drive_eq_some.mp stepped
  have changes := performed_of_perform performed
  have owns : service.regionOf (.job order) = job.region := by
    simp [Service.regionOf, found]
  cases WarmJob.step_advances advanced with
  | goes working follows driven =>
      have same : moved.region = job.region := by
        rw [region_of_working working,
          region_of_working (mt follows.going working), follows.spec]
      obtain ⟨regions, owned⟩ := changes.neutral driven.neutral
      refine .keeps (fun region => by simp [Service.regions, regions,
        Service.setJob]) ?_
      rw [Service.regions, owned, regionOf_setJob]
      exact Function.update_eq_self_iff.mpr (same.trans owns.symm)
  | returns working ended release =>
      subst ended release
      refine step_of_release (owns.trans (region_of_working working))
        changes.regions ?_
      have owned : next.regionOf =
          (service.setJob order (some (job.enter .finished))).regionOf :=
        regionOf_congr changes.workers changes.warmJobs
      rw [owned, regionOf_setJob]
      rfl

/-- What a step of a request does to the registry, unless it disappears with
a region. -/
theorem start_regions {id : Nat} {start : Start} {event : Event}
    {moved : Option Start} {effect : Effect}
    (fresh : service.warmJobs service.warmSeq = none)
    (found : service.workers id = some (.start start))
    (moves : start.Moves service event moved effect)
    (performed : Performed (service.setWorker id (moved.map .start)) effect
      next) :
    (∃ region, event = .dropped ∧
      Registry.Leaves service.regions next.regions (.start id) region) ∨
    ((event = .dropped → start.region = none) ∧
      Registry.Step service.regions next.regions) := by
  have owns : service.regionOf (.start id) = start.region := by
    simp [Service.regionOf, found, Worker.region]
  have regions := performed.regions
  cases moves with
  | idles before after neutral =>
      refine .inr ⟨fun _ => before, ?_⟩
      obtain ⟨same, owned⟩ := performed.neutral (neutral _)
      refine .keeps (fun region => iff_of_eq (congrArg (region ∈ ·) same)) ?_
      rw [Service.regions, owned, regionOf_setWorker]
      refine Function.update_eq_self_iff.mpr ?_
      rw [owns, before]
      cases moved with
      | none => rfl
      | some next => exact after
  | reserves region before free after =>
      rename_i reserved
      refine .inr ⟨fun _ => before, ?_⟩
      refine .acquires (.start id) region free (owns.trans before) ?_ ?_
      · intro other
        have listed : other ∈ next.activeWarmRegions ↔
            other ∈ region :: service.activeWarmRegions :=
          iff_of_eq (congrArg (other ∈ ·) regions)
        rw [List.mem_cons] at listed
        exact listed.trans or_comm
      · have owned : next.regionOf =
            (service.setWorker id (some (.start reserved))).regionOf :=
          regionOf_congr performed.workers performed.warmJobs
        rw [regionOf_setWorker] at owned
        exact owned.trans (congrArg
          (Function.update service.regionOf (.start id)) after)
  | registers holder resolved total before room kept =>
      refine .inr ⟨fun dropped => absurd dropped kept, ?_⟩
      have owned : next.regionOf =
          ((service.setWorker id none).setJob service.warmSeq
            (some (start.request.job service resolved total))).regionOf :=
        regionOf_congr performed.workers performed.warmJobs
      rw [regionOf_setJob, regionOf_setWorker] at owned
      have held : ∀ other, next.regions.held other ↔
          service.regions.held other :=
        fun other => iff_of_eq (congrArg (other ∈ ·) regions)
      have idle : service.regionOf (.job service.warmSeq) = none := by
        simp [Service.regionOf, fresh]
      cases named : start.request.regionId with
      | some region =>
          refine .passes (.start id) (.job service.warmSeq) region
            (owns.trans (before.trans named)) idle held (owned.trans ?_)
          exact congrArg _ named
      | none =>
          refine .keeps held (owned.trans ?_)
          have unowned : service.regionOf (.start id) = none :=
            owns.trans (before.trans named)
          have same : Function.update service.regionOf (.start id) none =
              service.regionOf :=
            Function.update_eq_self_iff.mpr unowned.symm
          exact (congrArg (Function.update · _ _) same).trans
            (Function.update_eq_self_iff.mpr (named.trans idle.symm))
  | refuses holder before kept =>
      refine .inr ⟨fun dropped => absurd dropped kept, ?_⟩
      refine step_of_release (owns.trans before) regions ?_
      have owned : next.regionOf = (service.setWorker id none).regionOf :=
        regionOf_congr performed.workers performed.warmJobs
      rw [owned, regionOf_setWorker]
      rfl
  | disappears holder =>
      have owned : next.regionOf = (service.setWorker id none).regionOf :=
        regionOf_congr performed.workers performed.warmJobs
      rw [regionOf_setWorker] at owned
      have held : ∀ other, next.regions.held other ↔
          service.regions.held other :=
        fun other => iff_of_eq (congrArg (other ∈ ·) regions)
      cases reserved : start.region with
      | some region =>
          exact .inl ⟨region, rfl, owns.trans reserved, held, owned⟩
      | none =>
          refine .inr ⟨fun _ => rfl, .keeps held (owned.trans ?_)⟩
          exact Function.update_eq_self_iff.mpr (owns.trans reserved).symm

theorem work_regions {id : Nat} {event : Event}
    (fresh : service.warmJobs service.warmSeq = none)
    (stepped : step env service (.work id event) = some next) :
    (∃ region, event = .dropped ∧
      Registry.Leaves service.regions next.regions (.start id) region) ∨
    ((event = .dropped → service.regionOf (.start id) = none) ∧
      Registry.Step service.regions next.regions) := by
  obtain ⟨worker, found, ⟨moved, effect⟩, advanced, performed⟩ :=
    work_eq_some.mp stepped
  have changes := performed_of_perform performed
  rcases Worker.step_region advanced with
    ⟨start, moved, rfl, rfl, moves⟩ | ⟨before, after, neutral⟩
  · have owns : service.regionOf (.start id) = start.region := by
      simp [Service.regionOf, found, Worker.region]
    rw [owns]
    exact start_regions fresh found moves changes
  · have owns : service.regionOf (.start id) = none := by
      simp [Service.regionOf, found, before]
    obtain ⟨same, owned⟩ := changes.neutral (neutral _)
    refine .inr ⟨fun _ => owns,
      .keeps (fun region => iff_of_eq (congrArg (region ∈ ·) same)) ?_⟩
    rw [Service.regions, owned, regionOf_setWorker]
    exact Function.update_eq_self_iff.mpr (after.trans owns.symm)

/-- A request reserves nothing before its first step. -/
theorem Request.worker_region {request : Request} {worker : Worker}
    (asked : request.worker service = some worker) : worker.region = none := by
  cases request with
  | tile key | delete regionId =>
      simp only [Request.worker] at asked
      split at asked
      · cases asked
        rfl
      · contradiction
  | asset request =>
      obtain ⟨found, _, rfl⟩ := Option.map_eq_some_iff.mp asked
      rfl
  | warm request =>
      cases asked
      rfl

/-- Flags of jobs touch no region. -/
theorem regions_of_flags
    (regions : next.activeWarmRegions = service.activeWarmRegions)
    (workers : next.workers = service.workers)
    (warmJobs : ∀ order, (next.warmJobs order).bind WarmJob.region =
      (service.warmJobs order).bind WarmJob.region) :
    Registry.Step service.regions next.regions := by
  refine .keeps (fun region => iff_of_eq (congrArg (region ∈ ·) regions)) ?_
  funext owner
  cases owner with
  | start id => simp [Service.regions, Service.regionOf, workers]
  | job order => exact warmJobs order

theorem step_regions {label : Label Document}
    (fresh : service.warmJobs service.warmSeq = none)
    (stepped : step env service label = some next) :
    (LosesRegion service label ∧ ∃ owner region,
      Registry.Leaves service.regions next.regions owner region) ∨
    (¬ LosesRegion service label ∧
      Registry.Step service.regions next.regions) := by
  cases label with
  | config label =>
      simp only [step] at stepped
      split at stepped
      · obtain ⟨app, _, rfl⟩ := Option.map_eq_some_iff.mp stepped
        exact .inr ⟨id, regions_of_flags rfl rfl fun _ => rfl⟩
      · contradiction
  | boot deferred evicted bootId =>
      simp only [step] at stepped
      split at stepped
      · cases stepped
        refine .inr ⟨id, .clears (fun region => List.not_mem_nil) ?_⟩
        rintro (id | order) <;> rfl
      · contradiction
  | drive order event => exact .inr ⟨id, drive_regions stepped⟩
  | work party event =>
      rcases work_regions fresh stepped with ⟨region, rfl, leaves⟩ |
        ⟨kept, moves⟩
      · exact .inl ⟨⟨region, leaves.owns⟩, .start party, region, leaves⟩
      · refine .inr ⟨?_, moves⟩
        cases event with
        | dropped =>
            rintro ⟨region, owns⟩
            cases (kept rfl).symm.trans owns
        | _ => exact id
  | request party request =>
      simp only [step] at stepped
      split at stepped
      · contradiction
      · next unused =>
        obtain ⟨worker, asked, rfl⟩ := Option.map_eq_some_iff.mp stepped
        have idle : service.workers party = none :=
          Option.not_isSome_iff_eq_none.mp unused
        have region := Request.worker_region asked
        refine .inr ⟨id, .keeps (fun _ => Iff.rfl) ?_⟩
        rw [Service.regions, regionOf_setWorker]
        refine Function.update_eq_self_iff.mpr ?_
        simp [Service.regionOf, idle, region]
  | cancel order =>
      cases stepped
      refine .inr ⟨id, .keeps (fun _ => Iff.rfl) ?_⟩
      simp only [Service.regions, Service.cancelJob, regionOf_setJob,
        Option.bind_map]
      exact Function.update_eq_self_iff.mpr rfl
  | shutdown =>
      cases stepped
      refine .inr ⟨id, regions_of_flags rfl rfl fun order => ?_⟩
      simp only [Service.cancelAll, Option.bind_map]
      rfl
  | background op =>
      simp only [step] at stepped
      split at stepped
      · cases stepped
        exact .inr ⟨id, regions_of_flags rfl rfl fun _ => rfl⟩
      · contradiction

end Steps

/-! ## The bound on running jobs -/

def Service.runs (service : Service Document) (order : Nat) : Bool :=
  (service.warmJobs order).any fun job => decide (job.state = .running)

/-- The invariant of the job registry. -/
structure Registered (service : Service Document) : Prop where
  fresh : ∀ order, service.warmSeq ≤ order → service.warmJobs order = none
  verdicts : ∀ order job, service.warmJobs order = some job →
    job.finalState ≠ .running
  bounded : service.runningJobs ≤ maxActiveWarmJobs

section Registry

variable {service before after : Service Document}

theorem runs_eq_true {order : Nat} :
    service.runs order = true ↔
      ∃ job, service.warmJobs order = some job ∧ job.state = .running := by
  cases found : service.warmJobs order <;> simp [Service.runs, found]

theorem runningJobs_eq :
    service.runningJobs = (List.range service.warmSeq).countP service.runs :=
  List.countP_eq_length_filter.symm

/-- Orders which name no job do not count. -/
theorem countP_range_le {counted : Nat → Bool} {length longer : Nat}
    (within : length ≤ longer)
    (beyond : ∀ order, length ≤ order → counted order = false) :
    (List.range longer).countP counted =
      (List.range length).countP counted := by
  obtain ⟨extra, rfl⟩ := Nat.exists_eq_add_of_le within
  rw [List.range_add, List.countP_append, List.countP_map]
  simp [List.countP_eq_zero, beyond]

theorem Registered.not_runs (registered : Registered service) {order : Nat}
    (beyond : service.warmSeq ≤ order) : service.runs order = false := by
  simp [Service.runs, registered.fresh order beyond]

theorem registered_of_idle
    (idle : ∀ order, service.warmJobs order = none) : Registered service where
  fresh order _ := idle order
  verdicts order job found := by cases (idle order).symm.trans found
  bounded := by
    have none : (List.range service.warmSeq).countP service.runs = 0 :=
      List.countP_eq_zero.mpr fun order _ => by simp [Service.runs, idle]
    rw [runningJobs_eq, none]
    exact Nat.zero_le _

end Registry

section Steps

variable {env : Environment Document} {service next : Service Document}

/-- A job which runs after a step ran before it, or it is the job which the
step has registered below the bound. -/
theorem runs_of_step {label : Label Document} (registered : Registered service)
    (stepped : step env service label = some next) {order : Nat}
    (runs : next.runs order = true) :
    service.runs order = true ∨ (order = service.warmSeq ∧
      service.runningJobs < maxActiveWarmJobs ∧
      next.warmSeq = service.warmSeq + 1) := by
  obtain ⟨job, found, running⟩ := runs_eq_true.mp runs
  cases job_origin stepped found with
  | flagged cancel others earlier =>
      exact .inl (runs_eq_true.mpr ⟨_, earlier, running⟩)
  | moves earlier advanced =>
      rename_i event before effect
      refine .inl (runs_eq_true.mpr ⟨before, earlier, ?_⟩)
      cases WarmJob.step_advances advanced with
      | goes working follows driven =>
          refine (follows.state running).elim id fun verdict => ?_
          exact absurd verdict (registered.verdicts order before earlier)
      | returns working ended release =>
          subst ended
          exact running
  | registered party registering room seq =>
      exact .inr ⟨rfl, room, seq⟩

theorem Registered.continues {label : Label Document}
    (registered : Registered service)
    (stepped : step env service label = some next)
    (goes : Continues service next) : Registered next where
  fresh order beyond := by
    cases found : next.warmJobs order with
    | none => rfl
    | some job =>
        have absent := registered.fresh order (goes.warmSeq.trans beyond)
        cases job_origin stepped found with
        | flagged cancel others earlier => cases absent.symm.trans earlier
        | moves earlier advanced => cases absent.symm.trans earlier
        | registered party registering room seq => omega
  verdicts order job found := by
    cases job_origin stepped found with
    | flagged cancel others earlier =>
        rename_i before
        exact registered.verdicts order before earlier
    | moves earlier advanced =>
        have before := registered.verdicts order _ earlier
        cases WarmJob.step_advances advanced with
        | goes working follows driven => exact mt follows.verdict before
        | returns working ended release =>
            subst ended
            exact before
    | registered party registering room seq => simp [WarmRequest.job]
  bounded := by
    have bound := registered.bounded
    rw [runningJobs_eq] at bound ⊢
    by_cases opens : service.runningJobs < maxActiveWarmJobs ∧
        next.warmSeq = service.warmSeq + 1
    · obtain ⟨room, seq⟩ := opens
      have fewer : (List.range service.warmSeq).countP next.runs ≤
          (List.range service.warmSeq).countP service.runs := by
        refine List.countP_mono_left fun order member runs => ?_
        refine (runs_of_step registered stepped runs).elim id ?_
        rintro ⟨rfl, _⟩
        exact absurd (List.mem_range.mp member) (lt_irrefl _)
      have last : [service.warmSeq].countP next.runs ≤ 1 :=
        List.countP_le_length
      rw [runningJobs_eq] at room
      rw [seq, List.range_succ, List.countP_append]
      omega
    · refine le_trans ?_ bound
      rw [← countP_range_le goes.warmSeq fun _ => registered.not_runs]
      refine List.countP_mono_left fun order _ runs => ?_
      refine (runs_of_step registered stepped runs).elim id ?_
      rintro ⟨_, room, seq⟩
      exact absurd ⟨room, seq⟩ opens

theorem step_registered {label : Label Document}
    (registered : Registered service)
    (stepped : step env service label = some next) : Registered next := by
  rcases continues_or_boot stepped with
    ⟨goes, _⟩ | ⟨deferred, evicted, bootId, _, _, rfl⟩
  · exact registered.continues stepped goes
  · exact registered_of_idle fun _ => rfl

end Steps

/-! ## The lifecycle -/

/-- A region is listed as active exactly if a request which has reserved it
is in progress or a job whose driver has not returned owns it, there is at
most one such job for a region, and the number of running jobs is bounded. -/
structure RegionLifecycle (service : Service Document) : Prop where
  active : ∀ region, region ∈ service.activeWarmRegions ↔
    (∃ id start, service.workers id = some (.start start) ∧
      start.region = some region) ∨
    (∃ order job, service.warmJobs order = some job ∧
      job.phase ≠ .finished ∧ job.regionId = some region)
  exclusive : ∀ left right first second region,
    service.warmJobs left = some first →
    service.warmJobs right = some second →
    first.phase ≠ .finished → second.phase ≠ .finished →
    first.regionId = some region → second.regionId = some region →
    left = right
  bounded : service.runningJobs ≤ maxActiveWarmJobs

section Lifecycle

variable {env : Environment Document} {service next : Service Document}

theorem regionOf_start_eq_some {id : Nat} {region : String} :
    service.regionOf (.start id) = some region ↔
      ∃ start, service.workers id = some (.start start) ∧
        start.region = some region := by
  simp only [Service.regionOf, Option.bind_eq_some_iff]
  constructor
  · rintro ⟨worker, found, owns⟩
    cases worker with
    | start start => exact ⟨start, found, owns⟩
    | _ => cases owns
  · rintro ⟨start, found, owns⟩
    exact ⟨.start start, found, owns⟩

theorem regionOf_job_eq_some {order : Nat} {region : String} :
    service.regionOf (.job order) = some region ↔
      ∃ job, service.warmJobs order = some job ∧ job.phase ≠ .finished ∧
        job.regionId = some region := by
  simp only [Service.regionOf, Option.bind_eq_some_iff]
  refine exists_congr fun job => and_congr_right fun _ => ?_
  by_cases working : job.phase = .finished
  · simp [WarmJob.region, working]
  · simp [region_of_working working, working]

theorem lifecycle_active :
    (∃ owner, service.regions.owned owner = some region) ↔
    (∃ id start, service.workers id = some (.start start) ∧
      start.region = some region) ∨
    (∃ order job, service.warmJobs order = some job ∧
      job.phase ≠ .finished ∧ job.regionId = some region) := by
  constructor
  · rintro ⟨id | order, owns⟩
    · exact .inl ⟨id, regionOf_start_eq_some.mp owns⟩
    · exact .inr ⟨order, regionOf_job_eq_some.mp owns⟩
  · rintro (⟨id, owns⟩ | ⟨order, owns⟩)
    · exact ⟨.start id, regionOf_start_eq_some.mpr owns⟩
    · exact ⟨.job order, regionOf_job_eq_some.mpr owns⟩

theorem lifecycle_of_sound (sound : service.regions.Sound)
    (registered : Registered service) : RegionLifecycle service where
  active region := (sound.held region).trans lifecycle_active
  exclusive left right first second region foundLeft foundRight goingLeft
      goingRight namedLeft namedRight := by
    have same := sound.unique (.job left) (.job right) region
      (regionOf_job_eq_some.mpr ⟨first, foundLeft, goingLeft, namedLeft⟩)
      (regionOf_job_eq_some.mpr ⟨second, foundRight, goingRight, namedRight⟩)
    cases same
    rfl
  bounded := registered.bounded

/-- A region without an owner stays listed. -/
theorem not_lifecycle_of_leaves {owner : RegionOwner} {region : String}
    (sound : service.regions.Sound)
    (leaves : Registry.Leaves service.regions next.regions owner region) :
    ¬ RegionLifecycle next := by
  intro lifecycle
  have remains : next.regions.held region :=
    (leaves.held region).mpr ((sound.held _).mpr ⟨owner, leaves.owns⟩)
  obtain ⟨party, owns⟩ :=
    lifecycle_active.mpr ((lifecycle.active region).mp remains)
  rw [leaves.owned] at owns
  obtain ⟨apart, earlier⟩ := Registry.owned_of_update owns
  exact apart (sound.unique _ _ _ earlier leaves.owns)

/-- The invariant of the lifecycle. -/
structure Leased (service : Service Document) : Prop where
  sound : service.regions.Sound
  registered : Registered service

theorem leased_of_initial (initial : (serviceMachine env).initial service) :
    Leased service := by
  obtain ⟨found, deferred, bootId, _, _, _, rfl⟩ := initial
  refine ⟨⟨fun region => iff_of_false List.not_mem_nil ?_, ?_⟩,
    registered_of_idle fun _ => rfl⟩
  · rintro ⟨id | order, owns⟩ <;> cases owns
  · rintro (id | order) right region first <;> cases first

theorem leased_step {label : Label Document} (leased : Leased service)
    (kept : ¬ LosesRegion service label)
    (stepped : (serviceMachine env).step service label = some next) :
    Leased next := by
  change step env service label = some next at stepped
  refine ⟨?_, step_registered leased.registered stepped⟩
  rcases step_regions (leased.registered.fresh _ (le_refl _)) stepped with
    ⟨loses, _⟩ | ⟨_, moves⟩
  · exact absurd loses kept
  · exact leased.sound.step moves

/-- A region whose owner disappears breaks the lifecycle. -/
theorem not_lifecycle_of_loses {label : Label Document}
    (leased : Leased service) (loses : LosesRegion service label)
    (stepped : (serviceMachine env).step service label = some next) :
    ¬ RegionLifecycle next := by
  change step env service label = some next at stepped
  rcases step_regions (leased.registered.fresh _ (le_refl _)) stepped with
    ⟨_, owner, region, leaves⟩ | ⟨kept, _⟩
  · exact not_lifecycle_of_leaves leased.sound leaves
  · exact absurd loses kept

theorem leased_exec {start finish : Service Document}
    {labels : List (Label Document)}
    (initial : (serviceMachine env).initial start)
    (kept : (serviceMachine env).AllSteps (fun state label =>
      ¬ LosesRegion state label) start labels)
    (run : (serviceMachine env).exec start labels = some finish) :
    Leased finish :=
  Machine.exec_preserves_of_allSteps
    (fun _ _ _ leased kept stepped => leased_step leased kept stepped)
    run kept (leased_of_initial initial)

/-- The lifecycle holds in every state of a run exactly if no request for a
warm disappears with the region which it has reserved. -/
theorem region_lifecycle_iff {start finish : Service Document}
    {labels : List (Label Document)}
    (initial : (serviceMachine env).initial start)
    (run : (serviceMachine env).exec start labels = some finish) :
    (∀ first rest state, labels = first ++ rest →
      (serviceMachine env).exec start first = some state →
      RegionLifecycle state) ↔
    (serviceMachine env).AllSteps (fun state label =>
      ¬ LosesRegion state label) start labels := by
  constructor
  · intro always
    rcases Machine.allSteps_or_first _ run with kept | ⟨first, label, rest,
      state, next, rfl, reached, stepped, kept, loses⟩
    · exact kept
    · have leased := leased_exec initial kept reached
      have later : (serviceMachine env).exec start (first ++ [label]) =
          some next :=
        Machine.exec_append_eq_some.mpr ⟨state, reached,
          Machine.exec_cons_eq_some.mpr ⟨next, stepped, rfl⟩⟩
      exact absurd (always (first ++ [label]) rest next (by simp) later)
        (not_lifecycle_of_loses leased (not_not.mp loses) stepped)
  · rintro kept first rest state rfl reached
    have leased := leased_exec initial (Machine.allSteps_append.mp kept).1
      reached
    exact lifecycle_of_sound leased.sound leased.registered

end Lifecycle

/-- A request for a warm, up to the reservation of its region. -/
def reservedStart : List (Label Nat) :=
  chartPush ++
    [.request 1 (.warm sampleRequest), .work 1 (.locked 2), .work 1 .go]

theorem reservedStart_kept (labels : List (Label Nat))
    (kept : ∀ label ∈ labels, ∀ service,
      ¬ LosesRegion service label) (start : Service Nat) :
    (serviceMachine sampleDeployment).AllSteps (fun state label =>
      ¬ LosesRegion state label) start (reservedStart ++ labels) := by
  apply Machine.allSteps_of_labels
  intro label member service
  rcases List.mem_append.mp member with pushed | later
  · simp only [reservedStart, chartPush, Config.acceptedPush, List.map_cons,
      List.map_nil, List.cons_append, List.nil_append, List.mem_cons,
      List.not_mem_nil, or_false] at pushed
    rcases pushed with rfl | rfl | rfl | rfl | rfl | rfl | rfl | rfl | rfl |
      rfl | rfl | rfl | rfl <;> exact id
  · exact kept label later service

/-- The client disconnects while `start_warm` waits for the job registry: the
region stays listed. -/
theorem droppedStart_breaks_lifecycle :
    ∃ service next, (serviceMachine sampleDeployment).exec sampleService
        reservedStart = some service ∧
      (serviceMachine sampleDeployment).step service (.work 1 .dropped) =
        some next ∧
      next.activeWarmRegions = ["harbour"] ∧ ¬ RegionLifecycle next := by
  have ran : ((serviceMachine sampleDeployment).exec sampleService
      reservedStart).bind (fun service =>
        ((serviceMachine sampleDeployment).step service
          (.work 1 .dropped)).map fun next =>
          (service.regionOf (.start 1), next.activeWarmRegions)) =
      some (some "harbour", ["harbour"]) := by decide +kernel
  obtain ⟨service, run, later⟩ := Option.bind_eq_some_iff.mp ran
  obtain ⟨next, stepped, facts⟩ := Option.map_eq_some_iff.mp later
  obtain ⟨owns, active⟩ := Prod.mk.inj facts
  refine ⟨service, next, run, stepped, active, ?_⟩
  have kept := reservedStart_kept [] (by simp) sampleService
  rw [List.append_nil] at kept
  have loses : LosesRegion service (.work 1 .dropped) := ⟨"harbour", owns⟩
  exact not_lifecycle_of_loses (leased_exec sampleService_initial kept run)
    loses stepped

/-- The same request, when its client stays and the job is registered. -/
theorem region_lifecycle_iff_registered :
    ∃ finish, (serviceMachine sampleDeployment).exec sampleService
        (reservedStart ++ [.work 1 .go]) = some finish ∧
      ∀ first rest state, reservedStart ++ [.work 1 .go] = first ++ rest →
        (serviceMachine sampleDeployment).exec sampleService first =
          some state → RegionLifecycle state := by
  have ran : ((serviceMachine sampleDeployment).exec sampleService
      (reservedStart ++ [.work 1 .go])).isSome = true := by decide +kernel
  obtain ⟨finish, run⟩ := Option.isSome_iff_exists.mp ran
  refine ⟨finish, run, ?_⟩
  refine (region_lifecycle_iff sampleService_initial run).mpr ?_
  apply reservedStart_kept
  intro label member service
  cases List.mem_singleton.mp member
  exact id

end ChartLocker.Warm
