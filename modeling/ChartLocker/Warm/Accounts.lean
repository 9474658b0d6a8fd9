import ChartLocker.Warm.DriverTasks
import ChartLocker.Warm.Inflight
import ChartLocker.Warm.Lifecycle
import ChartLocker.Warm.Promoted
import ChartLocker.Warm.Staging

/-!
# The accounts of the service

In every state which a run reaches, the free permits and the tasks at work
add up to `WARM_CONCURRENCY`, the held flights are those of the parties which
work under them, `assets_warming` says whether a job stages assets, and every
task is in the set of its job.  The map of weak references behind the flights
grants and takes back keys in no other way than the service does.
-/

namespace ChartLocker.Warm

open Library Cache Catalog

variable {Document : Type}

/-- The tasks of the job in a slot of the registry, and its flag. -/
def Service.holding (service : Service Document) (order : Nat) :
    List Nat × Option Unit :=
  (service.warmJobs order).elim ([], none) fun job =>
    (job.tasks, job.assetsFlag)

def Service.owner (service : Service Document) (id : Nat) : Option Nat :=
  (service.workers id).bind Worker.owner

/-- The accounts agree with the parties. -/
structure Accounted (service : Service Document) : Prop where
  permits : Semaphore.Conserved service.holdsPermit service.warmPermits
    warmConcurrency
  flights : service.flights.Sound
  assets : service.assetsFlags.Sound
  tasks : ∀ id order, service.owner id = some order ↔
    id ∈ (service.holding order).1

/-- The parties keep their own records. -/
structure Kept (service : Service Document) : Prop where
  worker : ∀ id worker, service.workers id = some worker → worker.Tidy
  job : ∀ order job, service.warmJobs order = some job → job.Tidy

section Frames

variable {env : Environment Document} {service next : Service Document}

theorem holding_of_some {order : Nat} {job : WarmJob}
    (found : service.warmJobs order = some job) :
    service.holding order = (job.tasks, job.assetsFlag) := by
  simp [Service.holding, found]

theorem assetsFlags_owned (order : Nat) :
    service.assetsFlags.owned order = (service.holding order).2 := by
  cases found : service.warmJobs order with
  | none => simp [Service.assetsFlags, Service.holding, found]
  | some job => simp [Service.assetsFlags, Service.holding, found]

/-- Nothing which the accounts are about has changed. -/
theorem Accounted.congr (accounted : Accounted service)
    (permits : next.warmPermits = service.warmPermits)
    (assets : next.assetsWarming = service.assetsWarming)
    (heldFlights : next.heldFlights = service.heldFlights)
    (workers : ∀ id, next.holdsPermit id = service.holdsPermit id ∧
      next.flights.owned id = service.flights.owned id ∧
      next.owner id = service.owner id)
    (holding : ∀ order, next.holding order = service.holding order) :
    Accounted next where
  permits := by
    rw [permits]
    exact accounted.permits.congr fun id => (workers id).1
  flights := accounted.flights.keeps
    (fun key => iff_of_eq (congrArg (key ∈ ·) heldFlights))
    (funext fun id => (workers id).2.1)
  assets := by
    refine accounted.assets.keeps (fun _ => ?_) (funext fun order => ?_)
    · exact iff_of_eq (congrArg (· = true) assets)
    · rw [assetsFlags_owned, assetsFlags_owned, holding]
  tasks id order := by
    rw [(workers id).2.2, holding]
    exact accounted.tasks id order

/-- The jobs after an effect which is not one of their drivers'. -/
theorem Performed.holding {effect : Effect}
    (performed : Performed service effect next)
    (fresh : service.warmJobs service.warmSeq = none)
    (registered : ∀ holder job, effect = .register holder job →
      job.tasks = [] ∧ job.assetsFlag = none) (order : Nat) :
    next.holding order = service.holding order := by
  unfold Service.holding
  rw [performed.warmJobs]
  cases effect with
  | register holder job =>
      obtain ⟨tasks, flag⟩ := registered holder job rfl
      by_cases same : order = service.warmSeq
      · subst same
        simp [Effect.onJobs, fresh, tasks, flag]
      · simp [Effect.onJobs, same]
  | cancelRegion regionId =>
      cases found : service.warmJobs order with
      | none => simp [Effect.onJobs, found]
      | some job =>
          simp only [Effect.onJobs, found, Option.map_some, Option.elim_some]
          split <;> rfl
  | _ => rfl

/-- The parties after one of them has moved. -/
structure Moved (service next : Service Document) (id : Nat)
    (moved : Option Worker) : Prop where
  permit : next.holdsPermit id = moved.any Worker.holdsPermit
  permits : ∀ other, other ≠ id →
    next.holdsPermit other = service.holdsPermit other
  flights : next.flights.owned =
    Function.update service.flights.owned id (moved.bind Worker.flight)
  owner : next.owner id = moved.bind Worker.owner
  owners : ∀ other, other ≠ id → next.owner other = service.owner other

theorem moved_of_update {id : Nat} {moved : Option Worker}
    (workers : next.workers = Function.update service.workers id moved) :
    Moved service next id moved where
  permit := by simp [Service.holdsPermit, workers]
  permits other apart := by simp [Service.holdsPermit, workers, apart]
  flights := by
    funext other
    by_cases same : other = id
    · subst same
      simp [Service.flights, workers]
    · simp [Service.flights, workers, same]
  owner := by simp [Service.owner, workers]
  owners other apart := by simp [Service.owner, workers, apart]

/-- A slot of the table after which the accounts are the same. -/
theorem Accounted.moves (accounted : Accounted service) {id : Nat}
    {moved : Option Worker} (moves : Moved service next id moved)
    (permits : next.warmPermits = service.warmPermits)
    (assets : next.assetsWarming = service.assetsWarming)
    (heldFlights : next.heldFlights = service.heldFlights)
    (permit : moved.any Worker.holdsPermit = service.holdsPermit id)
    (flight : moved.bind Worker.flight = service.flights.owned id)
    (owner : moved.bind Worker.owner = service.owner id)
    (holding : ∀ order, next.holding order = service.holding order) :
    Accounted next := by
  refine accounted.congr permits assets heldFlights (fun other => ?_) holding
  by_cases same : other = id
  · subst same
    refine ⟨moves.permit.trans permit, ?_, moves.owner.trans owner⟩
    rw [moves.flights, Function.update_self, flight]
  · refine ⟨moves.permits other same, ?_, moves.owners other same⟩
    rw [moves.flights, Function.update_of_ne same]

theorem Worker.step_owner {worker : Worker} {moved : Option Worker}
    {event : Event} {effect : Effect}
    (stepped : worker.step env service event = some (moved, effect)) :
    moved.bind Worker.owner = worker.owner := by
  cases worker with
  | tile task =>
      obtain ⟨⟨after, _⟩, advanced, same⟩ := Option.map_eq_some_iff.mp stepped
      cases same
      exact congrArg some (TileTask.step_keeps advanced).1
  | asset task =>
      obtain ⟨⟨after, _⟩, advanced, same⟩ := Option.map_eq_some_iff.mp stepped
      cases same
      exact congrArg some (AssetTask.step_keeps advanced).1
  | live fetch =>
      obtain ⟨⟨after, _⟩, advanced, same⟩ := Option.map_eq_some_iff.mp stepped
      cases same
      cases after <;> rfl
  | deletion pending =>
      obtain ⟨⟨after, _⟩, advanced, same⟩ := Option.map_eq_some_iff.mp stepped
      cases same
      cases after <;> rfl
  | start pending =>
      obtain ⟨⟨after, _⟩, advanced, same⟩ := Option.map_eq_some_iff.mp stepped
      cases same
      cases after <;> rfl

/-- A party which is no driver neither spawns nor takes a task, and what it
registers has none. -/
theorem Worker.Uses.effects {worker : Worker} {moved : Option Worker}
    {effect : Effect} (uses : worker.Uses moved effect)
    (workers : Nat → Option Worker) :
    effect.onWorkers workers = workers := by
  cases uses with
  | keeps plain => cases effect <;> first | rfl | cases plain
  | _ => rfl

theorem Worker.step_registers {worker : Worker} {moved : Option Worker}
    {event : Event} {holder : Nat} {job : WarmJob}
    (stepped : worker.step env service event =
      some (moved, .register holder job)) :
    job.tasks = [] ∧ job.assetsFlag = none := by
  rcases Worker.step_opens stepped with plain | ⟨start, _, opens⟩
  · cases plain
  · cases opens with
    | registers registering room => exact ⟨rfl, rfl⟩

theorem Effect.plain_grants {effect : Effect} (plain : effect.isPlain = true)
    (grants : Granted service effect next) :
    next.warmPermits = service.warmPermits ∧
      next.assetsWarming = service.assetsWarming ∧
      next.heldFlights = service.heldFlights := by
  obtain ⟨permits, assets, heldFlights, _, _, _⟩ := grants
  cases effect <;> first | exact ⟨permits, assets, heldFlights⟩ | cases plain

/-- A party frees the flight which it holds, if it holds one. -/
theorem flights_release (sound : service.flights.Sound) {id : Nat}
    {key : Option TileKey}
    (before : service.flights.owned id = key.map inflightKey)
    (heldFlights : next.heldFlights = key.elim service.heldFlights fun held =>
      service.heldFlights.filter (· ≠ inflightKey held))
    (owned : next.flights.owned =
      Function.update service.flights.owned id none) :
    next.flights.Sound := by
  cases key with
  | none =>
      apply sound.keeps
      · exact fun other => iff_of_eq (congrArg (other ∈ ·) heldFlights)
      · exact owned.trans (Function.update_eq_self_iff.mpr before.symm)
  | some held =>
      apply sound.releases before ?_ owned
      intro other
      simp [Service.flights, heldFlights]

theorem Accounted.work (accounted : Accounted service) (kept : Kept service)
    (fresh : service.warmJobs service.warmSeq = none) {id : Nat}
    {event : Event} (stepped : step env service (.work id event) = some next) :
    Accounted next := by
  obtain ⟨worker, found, ⟨moved, effect⟩, advanced, performed⟩ :=
    work_eq_some.mp stepped
  have changes := performed_of_perform performed
  have grants := granted_of_perform performed
  have uses := (Worker.step_uses (kept.worker id worker found) advanced).1
  have workers : next.workers = Function.update service.workers id moved :=
    changes.workers.trans (uses.effects _)
  have moves := moved_of_update workers
  have holding : ∀ order, next.holding order = service.holding order := by
    intro order
    refine (changes.holding fresh fun holder job same => ?_) order
    dsimp only at same
    subst same
    exact Worker.step_registers advanced
  have permit : service.holdsPermit id = worker.holdsPermit := by
    simp [Service.holdsPermit, found]
  have flight : service.flights.owned id = worker.flight := by
    simp [Service.flights, found]
  have owner : service.owner id = worker.owner := by
    simp [Service.owner, found]
  have same : moved.bind Worker.owner = service.owner id :=
    (Worker.step_owner advanced).trans owner.symm
  have tasks : ∀ other order, next.owner other = some order ↔
      other ∈ (next.holding order).1 := by
    intro other order
    rw [holding, ← accounted.tasks]
    by_cases own : other = id
    · subst own
      rw [moves.owner, same]
    · rw [moves.owners other own]
  have assets : ∀ {shown : Bool}, next.assetsWarming = shown →
      shown = service.assetsWarming → next.assetsFlags.Sound := by
    intro shown after before
    refine accounted.assets.keeps (fun _ => ?_) (funext fun order => ?_)
    · exact iff_of_eq (congrArg (· = true) (after.trans before))
    · rw [assetsFlags_owned, assetsFlags_owned, holding]
  cases uses with
  | keeps plain permitSame flightSame =>
      obtain ⟨permits, shown, heldFlights⟩ := Effect.plain_grants plain grants
      exact accounted.moves moves permits shown heldFlights
        (permitSame.trans permit.symm) (flightSame.trans flight.symm) same
        holding
  | locks key permitSame before after =>
      have free : inflightKey key ∉ service.heldFlights :=
        grants.flight key rfl
      refine ⟨?_, ?_, assets grants.assets rfl, tasks⟩
      · rw [grants.permits]
        refine accounted.permits.congr fun other => ?_
        by_cases own : other = id
        · subst own
          exact moves.permit.trans (permitSame.trans permit.symm)
        · exact moves.permits other own
      · refine accounted.flights.acquires free (flight.trans before) ?_
          (moves.flights.trans (by rw [after]))
        intro other
        have listed : other ∈ next.heldFlights ↔
            other ∈ inflightKey key :: service.heldFlights :=
          iff_of_eq (congrArg (other ∈ ·) grants.heldFlights)
        rw [List.mem_cons] at listed
        exact listed.trans or_comm
  | frees key permitSame before after =>
      refine ⟨?_, ?_, assets grants.assets rfl, tasks⟩
      · rw [grants.permits]
        refine accounted.permits.congr fun other => ?_
        by_cases own : other = id
        · subst own
          exact moves.permit.trans (permitSame.trans permit.symm)
        · exact moves.permits other own
      · exact flights_release accounted.flights (flight.trans before)
          grants.heldFlights (moves.flights.trans (by rw [after]))
  | ends key holds released before after =>
      refine ⟨?_, ?_, assets grants.assets rfl, tasks⟩
      · rw [grants.permits]
        exact accounted.permits.release (permit.trans holds)
          (moves.permit.trans released) moves.permits
      · exact flights_release accounted.flights (flight.trans before)
          grants.heldFlights (moves.flights.trans (by rw [after]))

/-- A task which has given back its permit holds no flight. -/
theorem Worker.flight_of_ended {worker : Worker} {order : Nat}
    (tidy : worker.Tidy) (owned : worker.owner = some order)
    (ended : worker.holdsPermit = false) : worker.flight = none := by
  cases worker with
  | tile task =>
      have flightless : task.phase.flightless = true := by
        cases phase : task.phase with
        | finished result => rfl
        | _ => simp [Worker.holdsPermit, phase, TilePhase.working] at ended
      simp [Worker.flight, TileTask.flight, tidy flightless]
  | asset task => rfl
  | live fetch | deletion pending | start pending => cases owned

/-- A step of a driver writes its own slot of the registry. -/
theorem holding_of_drive {order : Nat} {moved : WarmJob}
    (warmJobs : next.warmJobs =
      Function.update service.warmJobs order (some moved)) :
    next.holding order = (moved.tasks, moved.assetsFlag) ∧
      ∀ other, other ≠ order →
        next.holding other = service.holding other := by
  constructor
  · simp [Service.holding, warmJobs]
  · intro other apart
    simp [Service.holding, warmJobs, apart]

/-- What a step of a driver leaves of the parties and of what they hold. -/
structure Driven (service next : Service Document) (order : Nat)
    (job moved : WarmJob) (effect : Effect) : Prop where
  before : service.holding order = (job.tasks, job.assetsFlag)
  own : next.holding order = (moved.tasks, moved.assetsFlag)
  others : ∀ other, other ≠ order →
    next.holding other = service.holding other
  workers : next.workers = effect.onWorkers service.workers
  grants : Granted (service.setJob order (some moved)) effect next

namespace Driven

variable {order : Nat} {job moved : WarmJob} {effect : Effect}

theorem flags (driven : Driven service next order job moved effect)
    {after : Option Unit} (same : moved.assetsFlag = after) :
    next.assetsFlags.owned =
      Function.update service.assetsFlags.owned order after := by
  funext other
  by_cases its : other = order
  · rw [its, Function.update_self, assetsFlags_owned, driven.own]
    exact same
  · rw [Function.update_of_ne its, assetsFlags_owned, assetsFlags_owned,
      driven.others other its]

/-- A step which leaves the flag where it is. -/
theorem unflagged (driven : Driven service next order job moved effect)
    (accounted : Accounted service)
    (shown : next.assetsWarming = service.assetsWarming)
    (same : moved.assetsFlag = job.assetsFlag) :
    next.assetsFlags.Sound := by
  apply accounted.assets.keeps
  · exact fun _ => iff_of_eq (congrArg (· = true) shown)
  · rw [driven.flags same]
    refine Function.update_eq_self_iff.mpr ?_
    rw [assetsFlags_owned, driven.before]

/-- A step which leaves the tasks and what they hold. -/
theorem still (driven : Driven service next order job moved effect)
    (accounted : Accounted service)
    (plain : effect.onWorkers service.workers = service.workers)
    (tasks : moved.tasks = job.tasks)
    (permits : next.warmPermits = service.warmPermits)
    (heldFlights : next.heldFlights = service.heldFlights)
    (assets : next.assetsFlags.Sound) : Accounted next := by
  have workers : next.workers = service.workers :=
    driven.workers.trans plain
  refine ⟨?_, ?_, assets, fun id other => ?_⟩
  · rw [permits]
    refine accounted.permits.congr fun id => ?_
    simp [Service.holdsPermit, workers]
  · apply accounted.flights.keeps
    · exact fun key => iff_of_eq (congrArg (key ∈ ·) heldFlights)
    · funext id
      simp [Service.flights, workers]
  · have owner : next.owner id = service.owner id := by
      simp [Service.owner, workers]
    rw [owner, accounted.tasks]
    by_cases its : other = order
    · rw [its, driven.own, driven.before, tasks]
    · rw [driven.others other its]

/-- The driver starts a task. -/
theorem spawns {id : Nat} {worker : Worker}
    (driven : Driven service next order job moved (.spawn id worker))
    (accounted : Accounted service) (free : service.workers id = none)
    (fresh : worker.Fresh order) (tasks : moved.tasks = id :: job.tasks)
    (flag : moved.assetsFlag = job.assetsFlag) : Accounted next := by
  have grants := driven.grants
  have moves : Moved service next id (some worker) :=
    moved_of_update driven.workers
  have unowned : service.owner id = none := by
    simp [Service.owner, free]
  refine ⟨?_, ?_, driven.unflagged accounted grants.assets flag,
    fun other holder => ?_⟩
  · have room : 0 < service.warmPermits := grants.permit id worker rfl
    have counted : service.warmPermits = next.warmPermits + 1 := by
      rw [grants.permits]
      exact (Nat.sub_add_cancel room).symm
    have conserved := accounted.permits
    rw [counted] at conserved
    refine conserved.acquire ?_ (moves.permit.trans fresh.permit)
      moves.permits
    simp [Service.holdsPermit, free]
  · apply accounted.flights.keeps
    · exact fun key => iff_of_eq (congrArg (key ∈ ·) grants.heldFlights)
    · rw [moves.flights]
      refine Function.update_eq_self_iff.mpr ?_
      simp [Service.flights, free, fresh.flight]
  · by_cases same : other = id
    · subst same
      have owner : next.owner other = some order :=
        moves.owner.trans fresh.owner
      by_cases its : holder = order
      · simp [owner, its, driven.own, tasks]
      · rw [owner, driven.others holder its, ← accounted.tasks, unowned]
        simp [Ne.symm its]
    · rw [moves.owners other same, accounted.tasks]
      by_cases its : holder = order
      · simp [its, driven.own, driven.before, tasks, same]
      · rw [driven.others holder its]

/-- The driver takes a task which has ended. -/
theorem takes {id : Nat} {worker : Worker}
    (driven : Driven service next order job moved (.take id))
    (accounted : Accounted service) (tidy : worker.Tidy)
    (present : service.workers id = some worker) (member : id ∈ job.tasks)
    (ended : worker.holdsPermit = false)
    (tasks : moved.tasks = job.tasks.filter (· ≠ id))
    (flag : moved.assetsFlag = job.assetsFlag) : Accounted next := by
  have grants := driven.grants
  have moves : Moved service next id none := moved_of_update driven.workers
  have owner : service.owner id = some order := by
    rw [accounted.tasks, driven.before]
    exact member
  have owned : worker.owner = some order := by
    simpa [Service.owner, present] using owner
  have flight := Worker.flight_of_ended tidy owned ended
  refine ⟨?_, ?_, driven.unflagged accounted grants.assets flag,
    fun other holder => ?_⟩
  · rw [grants.permits]
    refine accounted.permits.congr fun other => ?_
    by_cases same : other = id
    · subst same
      rw [moves.permit]
      simp [Service.holdsPermit, present, ended]
    · exact moves.permits other same
  · apply accounted.flights.keeps
    · exact fun key => iff_of_eq (congrArg (key ∈ ·) grants.heldFlights)
    · rw [moves.flights]
      refine Function.update_eq_self_iff.mpr ?_
      simp [Service.flights, present, flight]
  · by_cases same : other = id
    · subst same
      rw [moves.owner]
      by_cases its : holder = order
      · simp [its, driven.own, tasks]
      · rw [driven.others holder its, ← accounted.tasks, owner]
        simp [Ne.symm its]
    · rw [moves.owners other same, accounted.tasks]
      by_cases its : holder = order
      · simp [its, driven.own, driven.before, tasks, same]
      · rw [driven.others holder its]

end Driven

theorem Accounted.drive (accounted : Accounted service) (kept : Kept service)
    (named : Named service) {order : Nat} {event : Event}
    (stepped : step env service (.drive order event) = some next) :
    Accounted next := by
  obtain ⟨job, found, ⟨moved, effect⟩, advanced, performed⟩ :=
    drive_eq_some.mp stepped
  have changes := performed_of_perform performed
  have grants := granted_of_perform performed
  have manages := (WarmJob.step_steps (kept.job order job found) advanced).1
  obtain ⟨own, others⟩ :=
    holding_of_drive (drive_jobs advanced changes)
  have driven : Driven service next order job moved effect :=
    ⟨holding_of_some found, own, others, changes.workers, grants⟩
  have itself : job.order = order := (named.order order job found).2.1
  cases manages with
  | keeps plain tasks flag =>
      obtain ⟨permits, shown, heldFlights⟩ := Effect.plain_grants plain grants
      have same : effect.onWorkers service.workers = service.workers := by
        cases effect <;> first | rfl | cases plain
      exact driven.still accounted same tasks permits heldFlights
        (driven.unflagged accounted shown flag)
  | spawns id worker fresh tasks flag =>
      exact driven.spawns accounted (changes.freshTask id worker rfl)
        (itself ▸ fresh) tasks flag
  | takes id worker present member ended tasks flag =>
      exact driven.takes accounted (kept.worker id worker present) present
        member ended tasks flag
  | holds tasks free taken =>
      apply driven.still accounted rfl tasks grants.permits grants.heldFlights
      have idle : ¬ service.assetsFlags.held () :=
        Bool.eq_false_iff.mp (grants.flag rfl)
      refine accounted.assets.acquires idle ?_ (fun _ => ?_)
        (driven.flags taken)
      · rw [assetsFlags_owned, driven.before]
        exact free
      · refine iff_of_true ?_ (.inr rfl)
        exact grants.assets
  | frees tasks held freed =>
      apply driven.still accounted rfl tasks grants.permits grants.heldFlights
      have owns : service.assetsFlags.owned order = some () := by
        rw [assetsFlags_owned, driven.before]
        exact held
      refine accounted.assets.releases owns (fun _ => ?_) (driven.flags freed)
      refine iff_of_false ?_ fun still => still.2 rfl
      exact fun after => Bool.noConfusion (grants.assets.symm.trans after)

/-! ## The machine -/

theorem Request.worker_owns {request : Request} {worker : Worker}
    (asked : request.worker service = some worker) :
    worker.holdsPermit = false ∧ worker.flight = none ∧
      worker.owner = none ∧ worker.Tidy := by
  cases request with
  | tile key =>
      simp only [Request.worker] at asked
      split at asked
      · cases asked
        exact ⟨rfl, rfl, rfl, fun _ => rfl⟩
      · contradiction
  | asset request =>
      obtain ⟨found, _, rfl⟩ := Option.map_eq_some_iff.mp asked
      exact ⟨rfl, rfl, rfl, fun _ => rfl⟩
  | delete regionId =>
      simp only [Request.worker] at asked
      split at asked
      · cases asked
        exact ⟨rfl, rfl, rfl, trivial⟩
      · contradiction
  | warm request =>
      cases asked
      exact ⟨rfl, rfl, rfl, trivial⟩

/-- A process which has just started. -/
theorem accounted_of_idle (permits : service.warmPermits = warmConcurrency)
    (assets : service.assetsWarming = false)
    (heldFlights : service.heldFlights = [])
    (workers : ∀ id, service.workers id = none)
    (warmJobs : ∀ order, service.warmJobs order = none) :
    Accounted service where
  permits := by
    rw [permits]
    apply Semaphore.conserved_of_idle
    intro id
    simp [Service.holdsPermit, workers]
  flights := by
    constructor
    · intro key
      simp [Service.flights, heldFlights, workers]
    · intro left right key held
      simp [Service.flights, workers] at held
  assets := by
    constructor
    · intro flag
      simp [Service.assetsFlags, assets, warmJobs]
    · intro left right flag held
      simp [Service.assetsFlags, warmJobs] at held
  tasks id order := by
    simp [Service.owner, Service.holding, workers, warmJobs]

theorem Accounted.step (accounted : Accounted service) (kept : Kept service)
    (named : Named service) (fresh : service.warmJobs service.warmSeq = none)
    {label : Label Document}
    (stepped : Warm.step env service label = some next) :
    Accounted next := by
  cases label with
  | config label =>
      simp only [Warm.step] at stepped
      split at stepped
      · obtain ⟨app, _, rfl⟩ := Option.map_eq_some_iff.mp stepped
        exact accounted.congr rfl rfl rfl (fun _ => ⟨rfl, rfl, rfl⟩)
          fun _ => rfl
      · contradiction
  | boot deferred evicted bootId =>
      simp only [Warm.step] at stepped
      split at stepped
      · cases stepped
        exact accounted_of_idle rfl rfl rfl (fun _ => rfl) fun _ => rfl
      · contradiction
  | drive order event => exact accounted.drive kept named stepped
  | work id event => exact accounted.work kept fresh stepped
  | request id request =>
      simp only [Warm.step] at stepped
      split at stepped
      · contradiction
      · next unused =>
        obtain ⟨worker, asked, rfl⟩ := Option.map_eq_some_iff.mp stepped
        have idle : service.workers id = none :=
          Option.not_isSome_iff_eq_none.mp unused
        obtain ⟨permit, flight, owner, _⟩ := Request.worker_owns asked
        refine accounted.moves (moved_of_update rfl) rfl rfl rfl ?_ ?_ ?_
          fun _ => rfl
        · simp [Service.holdsPermit, idle, permit]
        · simp [Service.flights, idle, flight]
        · simp [Service.owner, idle, owner]
  | cancel order =>
      cases stepped
      refine accounted.congr rfl rfl rfl (fun _ => ⟨rfl, rfl, rfl⟩)
        fun other => ?_
      by_cases own : other = order
      · subst own
        cases found : service.warmJobs other with
        | none => simp [Service.holding, Service.cancelJob, Service.setJob,
            found]
        | some job =>
            simp [Service.holding, Service.cancelJob, Service.setJob, found,
              WarmJob.tasks, WarmJob.assetsFlag]
      · simp [Service.holding, Service.cancelJob, Service.setJob, own]
  | shutdown =>
      cases stepped
      refine accounted.congr rfl rfl rfl (fun _ => ⟨rfl, rfl, rfl⟩)
        fun other => ?_
      cases found : service.warmJobs other with
      | none => simp [Service.holding, Service.cancelAll, found]
      | some job =>
          simp [Service.holding, Service.cancelAll, found, WarmJob.tasks,
            WarmJob.assetsFlag]
  | background op =>
      simp only [Warm.step] at stepped
      split at stepped
      · cases stepped
        exact accounted.congr rfl rfl rfl (fun _ => ⟨rfl, rfl, rfl⟩)
          fun _ => rfl
      · contradiction

theorem Kept.step (kept : Kept service) {label : Label Document}
    (stepped : Warm.step env service label = some next) : Kept next where
  worker id worker found := by
    cases worker_origin stepped found with
    | stays present => exact kept.worker id worker present
    | moves present advanced =>
        exact (Worker.step_uses (kept.worker id _ present) advanced).2 worker
          rfl
    | spawned present advanced free =>
        have manages := (WarmJob.step_steps (kept.job _ _ present) advanced).1
        generalize same : Effect.spawn id worker = effect at manages
        cases manages with
        | keeps plain =>
            subst same
            cases plain
        | spawns other spawned fresh =>
            cases same
            exact fresh.tidy
        | _ => cases same
    | requested asked => exact (Request.worker_owns asked).2.2.2
  job order job found := by
    cases job_origin stepped found with
    | flagged cancel others earlier =>
        obtain ⟨set, stage, reported⟩ := kept.job order _ earlier
        exact ⟨set, stage, reported⟩
    | moves earlier advanced =>
        exact (WarmJob.step_steps (kept.job order _ earlier) advanced).2
    | registered present registering room seq =>
        refine ⟨fun _ => rfl, fun stage staging => ?_, fun verdict => ?_⟩
        · cases staging
        · exact absurd rfl verdict

/-- A job with a task shows that it runs. -/
theorem running_of_task (accounted : Accounted service) (kept : Kept service)
    {id order : Nat} (owned : service.owner id = some order) :
    ∃ job, service.warmJobs order = some job ∧ job.state = .running ∧
      id ∈ job.tasks := by
  have member := (accounted.tasks id order).mp owned
  cases found : service.warmJobs order with
  | none => simp [Service.holding, found] at member
  | some job =>
      rw [holding_of_some found] at member
      refine ⟨job, rfl, ?_, member⟩
      have tidy := kept.job order job found
      by_contra verdict
      have empty : job.tasks = [] := by
        rcases tidy.reported verdict with phase | phase
        · have set := tidy.set (by rw [phase]; rfl)
          simp [WarmJob.tasks, phase, set]
        · have set := tidy.set (by rw [phase]; rfl)
          simp [WarmJob.tasks, phase, set]
      rw [empty] at member
      cases member

end Frames

/-! ## The table behind the flights -/

/-- The held flights of the service are the keys of tiles under which the
callers of the table work. -/
def Service.HoldsFlightsOf (service : Service Document) (table : Inflight) :
    Prop :=
  ∀ key : TileKey, inflightKey key ∈ service.heldFlights ↔
    table.flights.held (inflightKey key)

/-- What an effect does which is about no more than one flight. -/
def Effect.isFlight : Effect → Bool
  | .quiet | .lockFlight _ | .freeFlight (some _) => true
  | _ => false

/-- A flight which is none of a tile is no matter of the held flights. -/
theorem Service.HoldsFlightsOf.quiet {table after : Inflight}
    {service : Service Document} (agrees : service.HoldsFlightsOf table)
    (same : ∀ key : TileKey, after.flights.held (inflightKey key) ↔
      table.flights.held (inflightKey key)) :
    ∃ (effect : Effect) (next : Service Document),
      effect.isFlight = true ∧ service.perform effect = some next ∧
        next.HoldsFlightsOf after :=
  ⟨.quiet, service, rfl, rfl, fun key => (agrees key).trans (same key).symm⟩

/-- A step of the table is an effect on the flights of the service. -/
theorem Service.HoldsFlightsOf.step {table after : Inflight}
    {service : Service Document} (agrees : service.HoldsFlightsOf table)
    (sound : table.Sound) {label : Inflight.Label}
    (stepped : table.step label = some after) :
    ∃ (effect : Effect) (next : Service Document),
      effect.isFlight = true ∧ service.perform effect = some next ∧
        next.HoldsFlightsOf after := by
  cases sound.flightStep stepped with
  | keeps same =>
      apply agrees.quiet
      intro key
      unfold Inflight.flights
      rw [same]
  | acquires caller flight known idle free taken =>
      have grown := Registry.held_ofOwned_acquires idle flight.key
      rw [← taken] at grown
      by_cases tile : ∃ key : TileKey, flight.key = inflightKey key
      · obtain ⟨key, named⟩ := tile
        have absent : inflightKey key ∉ service.heldFlights := by
          rw [agrees, ← named]
          exact fun held => held.elim free
        refine ⟨.lockFlight key, { service with
          heldFlights := inflightKey key :: service.heldFlights }, rfl,
          if_neg absent, fun other => ?_⟩
        refine Iff.trans ?_ (grown _).symm
        rw [named, List.mem_cons, agrees, or_comm]
        rfl
      · apply agrees.quiet
        intro other
        refine (grown _).trans (or_iff_left fun same => ?_)
        exact tile ⟨other, same.symm⟩
  | releases caller flight known works given =>
      have shrunk := Registry.held_ofOwned_releases
        (fun _ has => sound.flightOf_unique has works) works
      rw [← given] at shrunk
      by_cases tile : ∃ key : TileKey, flight.key = inflightKey key
      · obtain ⟨key, named⟩ := tile
        refine ⟨.freeFlight (some key), { service with
          heldFlights := service.heldFlights.filter (· ≠ inflightKey key) },
          rfl, rfl, fun other => ?_⟩
        refine Iff.trans ?_ (shrunk _).symm
        rw [named, List.mem_filter, agrees]
        simp [Inflight.flights]
      · apply agrees.quiet
        intro other
        refine (shrunk _).trans (and_iff_left fun same => ?_)
        exact tile ⟨other, same.symm⟩

/-- In every reachable state at most `WARM_CONCURRENCY` tasks are at work and
every other permit is free, the held flights and the flag of the assets name
the one party each of them belongs to, every task belongs to one job, which
still runs and joins it, and whatever the single-flight table does next is an
effect on the held flights. -/
theorem service_accounts {env : Environment Document}
    {service : Service Document}
    (reached : (serviceMachine env).Reachable service) :
    Accounted service ∧
    (∀ id order, service.owner id = some order →
      ∃ job, service.warmJobs order = some job ∧ job.state = .running ∧
        id ∈ job.tasks) ∧
    (∀ (table after : Inflight) (label : Inflight.Label),
      inflightMachine.Reachable table → service.HoldsFlightsOf table →
      table.step label = some after →
      ∃ (effect : Effect) (next : Service Document),
        effect.isFlight = true ∧ service.perform effect = some next ∧
          next.HoldsFlightsOf after) := by
  have always : Staged service ∧ Registered service ∧ Accounted service ∧
      Kept service := by
    refine reached.invariant (motive := fun state => Staged state ∧
      Registered state ∧ Accounted state ∧ Kept state) ?_
      fun state label next before stepped => ?_
    · intro state initial
      refine ⟨staged_of_initial initial, ?_⟩
      obtain ⟨found, deferred, bootId, _, _, _, rfl⟩ := initial
      refine ⟨registered_of_idle fun _ => rfl,
        accounted_of_idle rfl rfl rfl (fun _ => rfl) fun _ => rfl, ?_, ?_⟩
      · exact fun _ _ absent => by cases absent
      · exact fun _ _ absent => by cases absent
    · change Warm.step env state label = some next at stepped
      obtain ⟨staged, registered, accounted, kept⟩ := before
      exact ⟨staged.step stepped, step_registered registered stepped,
        accounted.step kept staged.named (registered.fresh _ (le_refl _))
          stepped, kept.step stepped⟩
  obtain ⟨_, _, accounted, kept⟩ := always
  refine ⟨accounted, fun _ _ owned => running_of_task accounted kept owned,
    fun table after label shown agrees stepped => ?_⟩
  exact agrees.step (Inflight.Sound.reachable shown) stepped

/-- The download of four tiles, with the first task at the upstream; the table
has one caller, who works under the key of that tile and is dropped. -/
theorem service_accounts_harbourWarm :
    ∃ service : Service Nat, (Accounted service ∧ ∀ id order,
      service.owner id = some order →
        ∃ job, service.warmJobs order = some job ∧ job.state = .running ∧
          id ∈ job.tasks) ∧
      service.warmPermits = 2 ∧ service.heldFlights = ["chart/0/0/0"] ∧
      service.owner 5 = some 0 ∧
      ∃ table after : Inflight, service.HoldsFlightsOf table ∧
        table.step (.dropped 0) = some after ∧
        ∃ (effect : Effect) (next : Service Nat), effect.isFlight = true ∧
          service.perform effect = some next ∧ next.HoldsFlightsOf after := by
  have ran : ((serviceMachine sampleDeployment).exec sampleService
      (harbourWarm.take 36)).map (fun service => (service.warmPermits,
        service.heldFlights, service.owner 5)) =
        some (2, ["chart/0/0/0"], some 0) := by
    decide +kernel
  obtain ⟨service, run, facts⟩ := Option.map_eq_some_iff.mp ran
  obtain ⟨permits, rest⟩ := Prod.mk.inj facts
  obtain ⟨heldFlights, owner⟩ := Prod.mk.inj rest
  have accounts := service_accounts ⟨sampleService, harbourWarm.take 36,
    sampleService_initial, run⟩
  obtain ⟨table, shown, works⟩ : ∃ table, inflightMachine.exec
      ⟨KeyedTable.empty, [], 0⟩ [.inflightLock "chart/0/0/0", .acquire 0] =
        some table ∧ table.callers = [⟨"chart/0/0/0", 0, .inside⟩] :=
    ⟨_, rfl, rfl⟩
  have agrees : service.HoldsFlightsOf table := by
    intro key
    rw [heldFlights, List.mem_singleton]
    constructor
    · intro same
      exact ⟨0, Inflight.flightOf_eq_some.mpr
        ⟨⟨"chart/0/0/0", 0, .inside⟩, by rw [works]; rfl, rfl, same.symm⟩⟩
    · rintro ⟨caller, has⟩
      obtain ⟨flight, known, _, same⟩ := Inflight.flightOf_eq_some.mp has
      rw [works] at known
      rw [← same, List.mem_singleton.mp (List.mem_of_getElem? known)]
  have dropped : table.step (.dropped 0) =
      some (table.advance 0 ⟨"chart/0/0/0", 0, .inside⟩ .leaving) := by
    simp [Inflight.step, works]
  exact ⟨service, ⟨accounts.1, accounts.2.1⟩, permits, heldFlights, owner,
    table, _, agrees, dropped, accounts.2.2 table _ _
      ⟨_, _, rfl, shown⟩ agrees dropped⟩

end ChartLocker.Warm
