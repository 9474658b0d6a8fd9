import ChartLocker.Warm.Frames

/-!
# What a rejected push leaves behind

A push which is answered 409 or 500 has incremented the generation twice.  The
next style which is learned takes its namespace from the generation, so that
later requests tell the push from the same service without it, whatever else
has happened before, meanwhile and in its place.
-/

namespace ChartLocker.Warm

open Library Cache Catalog

variable {Document : Type}

/-! ## With and without the push -/

/-- What later requests see of the configuration, the styles, the tiles and
the warms. -/
structure SameView (shown expected : Service Document) : Prop where
  sources : shown.app.sources = expected.app.sources
  live : shown.app.live = expected.app.live
  publicBase : shown.app.publicBase = expected.app.publicBase
  geocodingEnabled :
    shown.app.geocodingEnabled = expected.app.geocodingEnabled
  /-- Which styles are served, and under which namespace. -/
  styles : ∀ source,
    shown.app.namespaceOf source = expected.app.namespaceOf source
  tiles : shown.cache.tables = expected.cache.tables
  warms : ∀ order, (shown.warmJobs order).map WarmJob.state =
    (expected.warmJobs order).map WarmJob.state

/-- Every run of later requests which both services can make ends in what
looks the same. -/
def Unobserved (env : Environment Document)
    (pushed unpushed : Service Document) : Prop :=
  ∀ later shown expected,
    (serviceMachine env).exec pushed later = some shown →
    (serviceMachine env).exec unpushed later = some expected →
    SameView shown expected

/-- Nothing of the kind of a push or of a boot. -/
def Label.isPushless : Label Document → Bool
  | .config (.configBegin _) | .boot _ _ _ => false
  | _ => true

/-- Nothing which takes the answer of a push away from it. -/
def Label.awaits (id : Nat) : Label Document → Bool
  | .config (.drop other) | .config (.configResume other) => other != id
  | .boot _ _ _ => false
  | _ => true

/-- A run in which a push begins and is answered 409 or 500, with anything in
between. -/
inductive RejectedPush (env : Environment Document) (id : Nat)
    (before after : Service Document) : Prop where
  | answered (body : Config.ConfigBody) (cap : Int)
      (began answering : Service Document)
      (meanwhile : List (Label Document)) (result : Config.JobResult Document)
      (begins : step env before (.config (.configBegin id)) = some began)
      (enforces : began.app.tasks id = some (.config body (.enforcing cap)))
      (runs : (serviceMachine env).exec began meanwhile = some answering)
      (awaits : ∀ label ∈ meanwhile, label.awaits id = true)
      (finished : answering.app.jobs id = some (.finished result))
      (refused : result ≠ .applied)
      (answers : step env answering (.config (.configResume id)) = some after)

/-! ## The configuration within the service -/

/-- The parties hold and free `config_update`, and call the cache. -/
def ofParty : Config.Label Document → Bool
  | .lockHolder _ | .unlockHolder _ | .cacheCall _ => true
  | _ => false

section Steps

variable {env : Environment Document} {service next : Service Document}

/-- A step of the configuration machine which a step of the service takes. -/
def TakenBy (env : Environment Document)
    (allowed : Config.Label Document → Prop)
    (app next : Config.AppState Document) : Prop :=
  ∃ inner, Config.step env.toEnvironment app inner = some next ∧
    (∀ deferred, inner ≠ .boot deferred) ∧
    (allowed inner ∨ ofParty inner = true)

theorem TakenBy.call {allowed : Config.Label Document → Prop}
    (app : Config.AppState Document) (op : CacheOp) :
    TakenBy env allowed app { app with cache := op.apply app.cache } :=
  ⟨.cacheCall op, rfl, nofun, .inr rfl⟩

theorem takenBy_of_perform {allowed : Config.Label Document → Prop}
    {effect : Effect} (performed : service.perform effect = some next) :
    next.app = service.app ∨ TakenBy env allowed service.app next.app := by
  have unlocks : ∀ {holder : Nat} {unlocked : Service Document},
      service.unlockConfig holder = some unlocked →
        TakenBy env allowed service.app unlocked.app := by
    intro holder unlocked freed
    obtain ⟨app, released, rfl⟩ := Option.map_eq_some_iff.mp freed
    exact ⟨.unlockHolder holder, released, nofun, .inr rfl⟩
  cases effect with
  | call op =>
      cases performed
      exact .inr (.call _ op)
  | lockConfig holder =>
      obtain ⟨app, held, rfl⟩ := Option.map_eq_some_iff.mp performed
      exact .inr ⟨.lockHolder holder, held, nofun, .inr rfl⟩
  | unlockConfig holder => exact .inr (unlocks performed)
  | register holder job =>
      obtain ⟨unlocked, freed, rfl⟩ := Option.map_eq_some_iff.mp performed
      have moved := unlocks freed
      exact .inr moved
  | refuse holder regionId =>
      obtain ⟨unlocked, freed, rfl⟩ := Option.map_eq_some_iff.mp performed
      have moved := unlocks freed
      exact .inr moved
  | lockFlight key | spawn id worker | holdAssets =>
      simp only [Service.perform] at performed
      split at performed
      · contradiction
      · cases performed
        exact .inl rfl
  | _ =>
      cases performed
      exact .inl rfl

/-- Outside a boot the configuration of the service moves as the
configuration machine does. -/
theorem takenBy_of_step {label : Label Document}
    (stepped : step env service label = some next)
    (awake : ∀ deferred evicted bootId,
      label ≠ .boot deferred evicted bootId) :
    next.app = service.app ∨
      TakenBy env (fun inner => label = .config inner) service.app
        next.app := by
  cases label with
  | config inner =>
      simp only [step] at stepped
      split at stepped
      · next external =>
        obtain ⟨app, moved, rfl⟩ := Option.map_eq_some_iff.mp stepped
        refine .inr ⟨inner, moved, ?_, .inl rfl⟩
        rintro deferred rfl
        cases external
      · contradiction
  | boot deferred evicted bootId =>
      exact absurd rfl (awake deferred evicted bootId)
  | drive order event =>
      obtain ⟨_, _, _, _, performed⟩ := drive_eq_some.mp stepped
      have moved := @takenBy_of_perform Document env _ _
        (fun inner => Label.drive order event = .config inner) _ performed
      exact moved
  | work id event =>
      obtain ⟨_, _, _, _, performed⟩ := work_eq_some.mp stepped
      have moved := @takenBy_of_perform Document env _ _
        (fun inner => Label.work id event = .config inner) _ performed
      exact moved
  | request id request =>
      simp only [step] at stepped
      split at stepped
      · contradiction
      · obtain ⟨worker, _, rfl⟩ := Option.map_eq_some_iff.mp stepped
        exact .inl rfl
  | cancel order | shutdown =>
      cases stepped
      exact .inl rfl
  | background op =>
      simp only [step] at stepped
      split at stepped
      · cases stepped
        exact .inr (.call _ op)
      · contradiction

/-- A run of the service without a boot runs the configuration machine. -/
theorem configRun_of_exec {labels : List (Label Document)}
    (run : (serviceMachine env).exec service labels = some next)
    (awake : ∀ label ∈ labels, ∀ deferred evicted bootId,
      label ≠ .boot deferred evicted bootId) :
    ∃ inners, (Config.configMachine env.toEnvironment).exec service.app
        inners = some next.app ∧
      (∀ inner ∈ inners, ∀ deferred, inner ≠ .boot deferred) ∧
      ∀ inner ∈ inners, .config inner ∈ labels ∨ ofParty inner = true := by
  induction labels generalizing service with
  | nil =>
      obtain rfl : service = next := by simpa using run
      exact ⟨[], rfl, by simp, by simp⟩
  | cons label rest induction =>
      obtain ⟨mid, stepped, later⟩ := Machine.exec_cons_eq_some.mp run
      obtain ⟨inners, goes, boots, named⟩ := induction later
        fun other member => awake other (List.mem_cons_of_mem _ member)
      have rests : ∀ inner ∈ inners,
          .config inner ∈ label :: rest ∨ ofParty inner = true :=
        fun inner member => (named inner member).imp_left
          (List.mem_cons_of_mem _)
      rcases takenBy_of_step stepped (awake label List.mem_cons_self) with
        same | ⟨inner, moved, starts, allowed⟩
      · exact ⟨inners, same ▸ goes, boots, rests⟩
      · refine ⟨inner :: inners, Machine.exec_cons_eq_some.mpr
          ⟨mid.app, moved, goes⟩, ?_, ?_⟩
        · exact List.forall_mem_cons.mpr ⟨starts, boots⟩
        · refine List.forall_mem_cons.mpr ⟨allowed.imp_left ?_, rests⟩
          rintro rfl
          exact List.mem_cons_self

/-- The service can take the steps of the configuration machine which are its
own. -/
theorem exec_config {app : Config.AppState Document}
    {labels : List (Config.Label Document)}
    (run : (Config.configMachine env.toEnvironment).exec service.app labels =
      some app)
    (own : (Config.configMachine env.toEnvironment).AllSteps
      (fun state label => externalLabel state label = true) service.app
      labels) :
    (serviceMachine env).exec service (labels.map .config) =
      some (service.withApp app) := by
  induction labels generalizing service with
  | nil =>
      obtain rfl : service.app = app := by simpa using run
      rfl
  | cons label rest induction =>
      obtain ⟨mid, stepped, later⟩ := Machine.exec_cons_eq_some.mp run
      refine Machine.exec_cons_eq_some.mpr ⟨service.withApp mid, ?_,
        induction later (own.2 mid stepped)⟩
      have moved : Config.step env.toEnvironment service.app label =
          some mid := stepped
      simp only [serviceMachine, step, if_pos own.1, moved, Option.map_some]

end Steps

/-! ## Every state of a run -/

/-- A push which replaces the configuration holds the lock, and the ids in use
are bounded. -/
structure Orderly (app : Config.AppState Document) : Prop where
  owned : Config.Owned app
  bounded : ∃ bound, app.UsesBelow bound

section Reached

variable {env : Environment Document} {service next : Service Document}

theorem Orderly.step {app after : Config.AppState Document}
    (orderly : Orderly app) {inner : Config.Label Document}
    (stepped : Config.step env.toEnvironment app inner = some after) :
    Orderly after := by
  obtain ⟨bound, below⟩ := orderly.bounded
  exact ⟨orderly.owned.moves (Config.step_moves stepped),
    Config.usesBelow_of_step below stepped⟩

theorem orderly_of_step {label : Label Document}
    (orderly : Orderly service.app)
    (stepped : Warm.step env service label = some next) :
    Orderly next.app := by
  by_cases boots : ∃ deferred evicted bootId,
      label = .boot deferred evicted bootId
  · obtain ⟨deferred, evicted, bootId, rfl⟩ := boots
    simp only [Warm.step] at stepped
    split at stepped <;> cases stepped
    have booted : Orderly
        (service.app.booted env.toEnvironment deferred) :=
      @Orderly.step Document env service.app _ orderly (.boot deferred) rfl
    simp only [Service.booted]
    split
    · exact ⟨booted.owned, booted.bounded⟩
    · exact booted
  · rcases takenBy_of_step stepped (fun deferred evicted bootId same =>
      boots ⟨deferred, evicted, bootId, same⟩) with
      same | ⟨inner, moved, _, _⟩
    · exact same ▸ orderly
    · exact orderly.step moved

theorem orderly_of_reachable
    (reached : (serviceMachine env).Reachable service) :
    Orderly service.app := by
  refine reached.invariant (motive := fun service => Orderly service.app) ?_
    fun _ _ _ orderly stepped => orderly_of_step orderly stepped
  rintro _ ⟨found, deferred, bootId, _, _, _, rfl⟩
  refine ⟨?_, 0, fun _ _ => ⟨rfl, rfl⟩⟩
  intro id replacing
  cases replacing

/-- A step of the configuration is the step of its machine. -/
theorem configStep_of_step {label : Config.Label Document}
    (stepped : step env service (.config label) = some next) :
    Config.step env.toEnvironment service.app label = some next.app := by
  simp only [step] at stepped
  split at stepped
  · obtain ⟨app, moved, rfl⟩ := Option.map_eq_some_iff.mp stepped
    exact moved
  · contradiction

/-- The push has incremented the generation twice, and left the lock free. -/
theorem generation_of_rejectedPush {id : Nat}
    (orderly : Orderly service.app)
    (rejected : RejectedPush env id service next) :
    service.app.configUpdate = none ∧ next.app.configUpdate = none ∧
      next.app.configGeneration = service.app.configGeneration + 2 := by
  obtain ⟨body, cap, began, answering, meanwhile, result, begins, enforces,
    runs, awaits, finished, refused, answers⟩ := rejected
  have began_app := configStep_of_step begins
  obtain ⟨free, first⟩ := Config.configBegin_enforces began_app enforces
  have ordered := orderly.step began_app
  obtain ⟨inners, moves, awake, named⟩ := configRun_of_exec runs (by
    rintro _ member _ _ _ rfl
    exact absurd (awaits _ member) Bool.false_ne_true)
  obtain ⟨running, kept⟩ := Config.enforcing_of_exec ordered.owned enforces
    moves awake (by
      intro inner member
      rcases named inner member with own | party
      · have waits := awaits _ own
        constructor <;> rintro rfl <;> simp [Label.awaits] at waits
      · constructor <;> rintro rfl <;> cases party)
  have owned : Config.Owned answering.app :=
    Machine.exec_preserves (motive := Config.Owned)
      (fun _ _ _ owned stepped => owned.moves (Config.step_moves stepped))
      moves ordered.owned
  obtain ⟨second, released⟩ := Config.configResume_refuses owned running
    finished refused (configStep_of_step answers)
  exact ⟨free, released, by omega⟩

/-- Without a push the generation stays as it is. -/
theorem generation_of_pushless {labels : List (Label Document)}
    (orderly : Orderly service.app) (free : service.app.configUpdate = none)
    (run : (serviceMachine env).exec service labels = some next)
    (pushless : ∀ label ∈ labels, label.isPushless = true) :
    next.app.configGeneration = service.app.configGeneration := by
  obtain ⟨inners, moves, awake, named⟩ := configRun_of_exec run (by
    rintro _ member _ _ _ rfl
    exact absurd (pushless _ member) Bool.false_ne_true)
  refine Config.generation_of_exec (orderly.owned.idle free) moves awake ?_
  rintro inner member id rfl
  rcases named _ member with own | party
  · exact absurd (pushless _ own) Bool.false_ne_true
  · cases party

theorem orderly_of_exec {labels : List (Label Document)}
    (orderly : Orderly service.app)
    (run : (serviceMachine env).exec service labels = some next) :
    Orderly next.app :=
  Machine.exec_preserves (motive := fun service => Orderly service.app)
    (fun _ _ _ before stepped => orderly_of_step before stepped) run orderly

theorem orderly_of_rejectedPush {id : Nat} (orderly : Orderly service.app)
    (rejected : RejectedPush env id service next) : Orderly next.app := by
  obtain ⟨_, _, began, answering, _, _, begins, _, runs, _, _, _, answers⟩ :=
    rejected
  exact orderly_of_step (orderly_of_exec (orderly_of_step orderly begins)
    runs) answers

end Reached

/-! ## Later requests -/

/-- An empty catalog, a catalog of one style source, and its learn.  While the
generation is odd a push which is lost comes first. -/
def relearning (generation id : Nat) (cap : Int) (definition : ChartSource)
    (document : Document) (tilejson : String → Option Document) :
    List (Config.Label Document) :=
  (if generation % 2 = 0 then [] else Config.lostBegin id cap) ++
    Config.renewal (id + 1) cap definition document tilejson

section Later

variable {env : Environment Document} {service : Service Document}
  {id : Nat} {cap : Int} {definition : ChartSource} {document : Document}
  {tilejson : String → Option Document}

theorem externalLabel_of_renewal {label : Config.Label Document}
    (member : label ∈ Config.renewal id cap definition document tilejson)
    (app : Config.AppState Document) : externalLabel app label = true := by
  simp only [Config.renewal, Config.acceptedPush, List.cons_append,
    List.nil_append, List.mem_cons, List.not_mem_nil, or_false] at member
  rcases member with rfl | rfl | rfl | rfl | rfl | rfl | rfl | rfl | rfl |
    rfl | rfl | rfl | rfl | rfl | rfl | rfl | rfl | rfl | rfl | rfl | rfl |
    rfl | rfl | rfl | rfl <;> rfl

/-- The push which is lost is not a holder when it is dropped. -/
theorem externalLabel_lostBegin (app : Config.AppState Document) :
    (Config.configMachine env.toEnvironment).AllSteps
      (fun state label => externalLabel state label = true) app
      (Config.lostBegin id cap) := by
  refine ⟨rfl, fun waiting requested => ⟨rfl, fun enforcing begun =>
    ⟨?_, fun _ _ => trivial⟩⟩⟩
  change Config.configBegin env.toEnvironment waiting id = some enforcing
    at begun
  simp only [Config.configBegin] at begun
  split at begun
  · split at begun
    · cases begun
      simp [externalLabel, Config.AppState.finish, Config.AppState.setTask]
    · cases begun
      simp [externalLabel, Config.AppState.spawn, Config.AppState.setJob]
  · contradiction

/-- The namespace of the style is four increments away from the first even
generation. -/
theorem relearning_run
    (learns : env.toEnvironment.Learns definition document tilejson)
    (unused : service.app.UsesBelow id)
    (free : service.app.configUpdate = none)
    (fits : service.app.cache.pinnedBytes ≤ cap) (positive : 0 < cap) :
    ∃ shown, (serviceMachine env).exec service
        ((relearning service.app.configGeneration id cap definition document
          tilejson).map .config) = some shown ∧
      shown.app.namespaceOf definition.id =
        some (service.app.configGeneration +
          service.app.configGeneration % 2 + 4) := by
  have last := unused (id + 1) (Nat.le_succ id)
  have own : ∀ state, (Config.configMachine env.toEnvironment).AllSteps
      (fun state label => externalLabel state label = true) state
      (Config.renewal (id + 1) cap definition document tilejson) :=
    fun state => Machine.allSteps_of_labels fun label member app =>
      externalLabel_of_renewal member app
  by_cases even : service.app.configGeneration % 2 = 0
  · obtain ⟨app, run, namespaced⟩ := Config.renewal_run learns
      ⟨last.1, last.2, free, fits⟩ positive even
    refine ⟨service.withApp app, exec_config ?_ ?_, ?_⟩
    · rw [relearning, if_pos even]
      exact run
    · rw [relearning, if_pos even]
      exact own _
    · rw [even]
      exact namespaced
  · have first := unused id le_rfl
    obtain ⟨lost, begins, raised, released, pinned, others⟩ :=
      @Config.lostBegin_run Document env.toEnvironment service.app id cap
        ⟨first.1, first.2, free, fits⟩ positive
    obtain ⟨task, job⟩ := others (id + 1) (Nat.succ_ne_self id)
    obtain ⟨app, run, namespaced⟩ := Config.renewal_run learns
      ⟨task.trans last.1, job.trans last.2, released, pinned.le.trans fits⟩
      positive (by omega)
    refine ⟨service.withApp app, exec_config ?_ ?_, ?_⟩
    · rw [relearning, if_neg even]
      exact Machine.exec_append_eq_some.mpr ⟨lost, begins, run⟩
    · rw [relearning, if_neg even]
      exact Machine.allSteps_append.mpr ⟨externalLabel_lostBegin _,
        fun middle _ => own middle⟩
    · refine namespaced.trans (congrArg some ?_)
      omega

end Later

/-! ## The push is observed -/

/-- Whatever went on before the push and beside it, and whatever goes on in
its place, some later requests learn a style into another namespace. -/
theorem rejected_push_observed {env : Environment Document}
    {before after unpushed : Service Document} {id : Nat}
    {definition : ChartSource} {document : Document}
    {tilejson : String → Option Document}
    (learns : env.toEnvironment.Learns definition document tilejson)
    (reached : (serviceMachine env).Reachable before)
    (rejected : RejectedPush env id before after)
    {others : List (Label Document)}
    (pushless : ∀ label ∈ others, label.isPushless = true)
    (instead : (serviceMachine env).exec before others = some unpushed)
    (free : unpushed.app.configUpdate = none) :
    ¬ Unobserved env after unpushed := by
  intro unobserved
  have orderly := orderly_of_reachable reached
  obtain ⟨idle, released, twice⟩ := generation_of_rejectedPush orderly
    rejected
  have same := generation_of_pushless orderly idle instead pushless
  obtain ⟨pushedBound, pushedBelow⟩ :=
    (orderly_of_rejectedPush orderly rejected).bounded
  obtain ⟨bound, below⟩ := (orderly_of_exec orderly instead).bounded
  let fresh := max pushedBound bound
  let cap := max (max after.app.cache.pinnedBytes
    unpushed.app.cache.pinnedBytes) 1
  have positive : 0 < cap := lt_of_lt_of_le Int.one_pos (le_max_right _ _)
  obtain ⟨shown, shows, pushedNamespace⟩ := relearning_run learns
    (fun other above => pushedBelow other ((le_max_left _ _).trans above))
    released ((le_max_left _ _).trans (le_max_left _ _)) positive
  obtain ⟨expected, expects, namespaced⟩ := relearning_run learns
    (fun other above => below other ((le_max_right _ _).trans above))
    free ((le_max_right _ _).trans (le_max_left _ _)) positive
  -- The parity is the same, so that the same requests can be made in both.
  have requests : relearning after.app.configGeneration fresh cap definition
      document tilejson = relearning unpushed.app.configGeneration fresh cap
        definition document tilejson := by
    rw [relearning, relearning, twice, same, Nat.add_mod_right]
  rw [requests] at shows
  have agree := (unobserved _ shown expected shows expects).styles
    definition.id
  rw [pushedNamespace, namespaced] at agree
  have impossible := Option.some.inj agree
  omega

/-- A database with a region of 512 pinned bytes. -/
def savedTables : Tables :=
  ((CacheOp.putManyPinned ⟨none, 0⟩
    [⟨⟨"osm", 1, 0, 0⟩, .negative 404 50⟩] 1000 1000 (some "harbour")
    50).apply (TileCache.opened false Tables.empty)).tables

def savedService : Service Nat :=
  firstService sampleDeployment savedTables false sampleBootId

theorem savedService_initial :
    (serviceMachine sampleDeployment).initial savedService := by
  refine ⟨savedTables, false, sampleBootId, ?_, ?_, by decide, rfl⟩
  · exact joinsPinned_apply Tables.joinsPinned_empty _
  · have joined : savedTables.regionTiles =
        {⟨"harbour", ⟨"osm", 1, 0, 0⟩⟩} := by decide +kernel
    intro entry member
    rw [joined, Finset.mem_singleton] at member
    rw [member]
    decide +kernel

/-- A style is learned, and a push of a cap of 20 bytes is accepted by the
router. -/
def learnedStyle : List (Label Nat) :=
  (Config.acceptedPush 1
      { Config.sampleBody with sources := [Config.libertySource] } ++
    Config.acceptedLearn 2 "liberty" 100 7 ++
    [Config.Label.configRequest 3
      { Config.sampleBody with capBytes := some 20 }]).map .config

/-- The push is answered 409, and the style is learned again. -/
theorem refused_savedService :
    ∃ before after unpushed relearned,
      (serviceMachine sampleDeployment).exec savedService learnedStyle =
        some before ∧
      RejectedPush sampleDeployment 3 before after ∧
      (serviceMachine sampleDeployment).exec before [.config (.drop 3)] =
        some unpushed ∧
      (serviceMachine sampleDeployment).exec after
        ((Config.acceptedLearn 4 "liberty" 101 7).map .config) =
        some relearned ∧
      unpushed.app.configUpdate = none ∧
      unpushed.app.namespaceOf "liberty" = some 2 ∧
      after.app.namespaceOf "liberty" = none ∧
      relearned.app.namespaceOf "liberty" = some 4 := by
  have runs : ∃ before began answering after unpushed relearned,
      (serviceMachine sampleDeployment).exec savedService learnedStyle =
        some before ∧
      step sampleDeployment before (.config (.configBegin 3)) = some began ∧
      began.app.tasks 3 = some (.config
        { Config.sampleBody with capBytes := some 20 } (.enforcing 20)) ∧
      (serviceMachine sampleDeployment).exec began
        [.config (.runJob 3 .ok)] = some answering ∧
      answering.app.jobs 3 = some (.finished (.irreducible 512)) ∧
      step sampleDeployment answering (.config (.configResume 3)) =
        some after ∧
      (serviceMachine sampleDeployment).exec before [.config (.drop 3)] =
        some unpushed ∧
      (serviceMachine sampleDeployment).exec after
        ((Config.acceptedLearn 4 "liberty" 101 7).map .config) =
        some relearned ∧
      unpushed.app.configUpdate = none ∧
      unpushed.app.namespaceOf "liberty" = some 2 ∧
      after.app.namespaceOf "liberty" = none ∧
      relearned.app.namespaceOf "liberty" = some 4 :=
    ⟨_, _, _, _, _, _, rfl, rfl, rfl, rfl, rfl, rfl, rfl, rfl, rfl, rfl, rfl,
      rfl⟩
  obtain ⟨before, began, answering, after, unpushed, relearned, run, begins,
    enforces, works, finished, answers, instead, later, facts⟩ := runs
  have rejected : RejectedPush sampleDeployment 3 before after :=
    .answered _ 20 began answering _ _ begins enforces works (by decide)
      finished (by simp) answers
  exact ⟨before, after, unpushed, relearned, run, rejected, instead, later,
    facts⟩

theorem rejected_push_observed_savedService :
    ∃ before after unpushed, (serviceMachine sampleDeployment).exec
        savedService learnedStyle = some before ∧
      RejectedPush sampleDeployment 3 before after ∧
      (serviceMachine sampleDeployment).exec before [.config (.drop 3)] =
        some unpushed ∧
      ¬ Unobserved sampleDeployment after unpushed := by
  obtain ⟨before, after, unpushed, _, run, rejected, instead, _, free, _⟩ :=
    refused_savedService
  have learns : sampleDeployment.toEnvironment.Learns Config.libertySource 7
      fun _ => none :=
    ⟨rfl, _, _, rfl, rfl, rfl⟩
  exact ⟨before, after, unpushed, run, rejected, instead,
    rejected_push_observed learns ⟨savedService, learnedStyle,
      savedService_initial, run⟩ rejected (by decide) instead free⟩

/-- The style, which was served, needs the upstream again, and is learned into
another namespace. -/
theorem refusedPush_after_learn_observed :
    ∃ before after unpushed relearned,
      (serviceMachine sampleDeployment).Reachable before ∧
      RejectedPush sampleDeployment 3 before after ∧
      (serviceMachine sampleDeployment).exec before [.config (.drop 3)] =
        some unpushed ∧
      unpushed.app.namespaceOf "liberty" = some 2 ∧
      after.app.namespaceOf "liberty" = none ∧
      (serviceMachine sampleDeployment).exec after
        ((Config.acceptedLearn 4 "liberty" 101 7).map .config) =
        some relearned ∧
      relearned.app.namespaceOf "liberty" = some 4 ∧
      ¬ Unobserved sampleDeployment after unpushed := by
  obtain ⟨before, after, unpushed, relearned, run, rejected, instead, later,
    _, kept, lost, moved⟩ := refused_savedService
  refine ⟨before, after, unpushed, relearned, ⟨savedService, learnedStyle,
    savedService_initial, run⟩, rejected, instead, kept, lost, later, moved,
    fun unobserved => ?_⟩
  have agree := (unobserved [] after unpushed rfl rfl).styles "liberty"
  rw [lost, kept] at agree
  cases agree

end ChartLocker.Warm
