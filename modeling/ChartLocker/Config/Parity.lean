import ChartLocker.Config.Service
import Mathlib.Algebra.Group.Nat.Even

/-!
# The parity of the configuration generation

A push makes the generation odd when it begins and even again when it ends.
`Moves` says what any step does to the generation, to the owner of
`config_update` and to the set of pushes which are replacing the
configuration.  Every step but one keeps the parity right: the exception is
the loss of a request whose push has begun and not ended.
-/

namespace ChartLocker.Config

open Library

variable {Document : Type}

/-- The push has made its first increment and not its last. -/
def Task.replacing : Task Document → Bool
  | .config _ .waiting => false
  | .config _ _ => true
  | _ => false

def AppState.replacing (state : AppState Document) (id : Nat) : Bool :=
  (state.tasks id).any Task.replacing

/-- What a step does to the generation, the lock and the pushes.  A push can
be aborted only by a step for which `lost` holds. -/
inductive Moves (lost : Prop) (state next : AppState Document) : Prop where
  | keeps
      (generation : next.configGeneration = state.configGeneration)
      (lock : next.configUpdate = state.configUpdate)
      (pushes : ∀ other, next.replacing other = state.replacing other)
  | acquires (id : Nat)
      (free : state.configUpdate = none)
      (idle : state.replacing id = false)
      (generation : next.configGeneration = state.configGeneration)
      (lock : next.configUpdate = some id)
      (pushes : ∀ other, next.replacing other = state.replacing other)
  | releases (id : Nat)
      (idle : state.replacing id = false)
      (generation : next.configGeneration = state.configGeneration)
      (lock : next.configUpdate =
        if state.configUpdate = some id then none else state.configUpdate)
      (pushes : ∀ other, next.replacing other = state.replacing other)
  | begins (id : Nat)
      (free : state.configUpdate = none)
      (generation : next.configGeneration = state.configGeneration + 1)
      (lock : next.configUpdate = some id)
      (pushes : ∀ other, next.replacing other =
        if other = id then true else state.replacing other)
  | ends (id : Nat)
      (replaced : state.replacing id = true)
      (generation : next.configGeneration = state.configGeneration + 1)
      (lock : next.configUpdate =
        if state.configUpdate = some id then none else state.configUpdate)
      (pushes : ∀ other, next.replacing other =
        if other = id then false else state.replacing other)
  | aborts (id : Nat)
      (loss : lost)
      (replaced : state.replacing id = true)
      (generation : next.configGeneration = state.configGeneration)
      (lock : next.configUpdate =
        if state.configUpdate = some id then none else state.configUpdate)
      (pushes : ∀ other, next.replacing other =
        if other = id then false else state.replacing other)
  | boots
      (generation : next.configGeneration = 0)
      (lock : next.configUpdate = none)
      (pushes : ∀ other, next.replacing other = false)

section Fields

variable {lost : Prop} {state next : AppState Document} {id : Nat}

theorem replacing_update {task : Option (Task Document)}
    (tasks : next.tasks = Function.update state.tasks id task)
    (other : Nat) :
    next.replacing other =
      if other = id then task.any Task.replacing
      else state.replacing other := by
  by_cases same : other = id
  · subst same
    simp [AppState.replacing, tasks]
  · simp [AppState.replacing, tasks, same]

theorem Moves.advance {task : Option (Task Document)}
    (generation : next.configGeneration = state.configGeneration)
    (lock : next.configUpdate = state.configUpdate)
    (tasks : next.tasks = Function.update state.tasks id task)
    (same : task.any Task.replacing = state.replacing id) :
    Moves lost state next := by
  refine .keeps generation lock fun other => ?_
  rw [replacing_update tasks]
  split
  · next equality => rw [same, equality]
  · rfl

theorem Moves.finished
    (generation : next.configGeneration = state.configGeneration)
    (lock : next.configUpdate =
      if state.configUpdate = some id then none else state.configUpdate)
    (tasks : next.tasks = Function.update state.tasks id none)
    (idle : state.replacing id = false) : Moves lost state next := by
  refine .releases id idle generation lock fun other => ?_
  rw [replacing_update tasks]
  split
  · next equality => simp [equality, idle]
  · rfl

theorem Moves.closed
    (replaced : state.replacing id = true)
    (generation : next.configGeneration = state.configGeneration + 1)
    (lock : next.configUpdate =
      if state.configUpdate = some id then none else state.configUpdate)
    (tasks : next.tasks = Function.update state.tasks id none) :
    Moves lost state next := by
  refine .ends id replaced generation lock fun other => ?_
  rw [replacing_update tasks]
  rfl

theorem replacing_of_task {task : Task Document}
    (running : state.tasks id = some task) :
    state.replacing id = task.replacing := by
  simp [AppState.replacing, running]

end Fields

section Steps

variable {env : Environment Document} {lost : Prop}
  {state next : AppState Document} {id : Nat}

theorem configBegin_moves (stepped : configBegin env state id = some next) :
    Moves lost state next := by
  simp only [configBegin] at stepped
  split at stepped
  · next body running free =>
    split at stepped
    · cases stepped
      exact .finished rfl rfl rfl (replacing_of_task running)
    · cases stepped
      let task : Task Document :=
        .config body (.enforcing (body.knobs state.live).capBytes)
      exact .begins id free rfl rfl
        (@replacing_update Document state _ id (some task) rfl)
  · cases stepped

theorem configResume_moves (stepped : configResume env state id = some next) :
    Moves lost state next := by
  simp only [configResume] at stepped
  split at stepped
  · next running _ =>
    cases stepped
    exact .advance rfl rfl rfl (replacing_of_task running).symm
  · next running _ =>
    cases stepped
    exact .closed (replacing_of_task running) rfl rfl rfl
  · next running _ =>
    split at stepped
    · cases stepped
      exact .advance rfl rfl rfl (replacing_of_task running).symm
    · cases stepped
      exact .advance rfl rfl rfl (replacing_of_task running).symm
  · next running _ =>
    cases stepped
    exact .advance rfl rfl rfl (replacing_of_task running).symm
  · next running _ =>
    cases stepped
    exact .advance rfl rfl rfl (replacing_of_task running).symm
  · cases stepped

theorem configSources_moves (stepped : configSources state id = some next) :
    Moves lost state next := by
  simp only [configSources] at stepped
  split at stepped
  · next running =>
    cases stepped
    exact .advance rfl rfl rfl (replacing_of_task running).symm
  · cases stepped

theorem configReconcile_moves
    (stepped : configReconcile env state id = some next) :
    Moves lost state next := by
  simp only [configReconcile] at stepped
  split at stepped
  · next running =>
    cases stepped
    exact .advance rfl rfl rfl (replacing_of_task running).symm
  · cases stepped

theorem configInstall_moves (stepped : configInstall state id = some next) :
    Moves lost state next := by
  simp only [configInstall] at stepped
  split at stepped
  · next running =>
    cases stepped
    exact .advance rfl rfl rfl (replacing_of_task running).symm
  · cases stepped

theorem configPublish_moves (stepped : configPublish state id = some next) :
    Moves lost state next := by
  simp only [configPublish] at stepped
  split at stepped
  · next running =>
    cases stepped
    exact .closed (replacing_of_task running) rfl rfl rfl
  · cases stepped

/-- A job writes the cache and the persisted styles and nothing else. -/
theorem perform_eq (work : Work Document) (outcome : Outcome) :
    (perform env state work outcome).1 = { state with
      cache := (perform env state work outcome).1.cache
      learnedStyles := (perform env state work outcome).1.learnedStyles } := by
  cases work with
  | enforceCap cap =>
      simp only [perform]
      split
      · rfl
      · split <;> rfl
  | reconcile => cases outcome <;> rfl
  | deleteInvalid => cases outcome <;> rfl
  | store => cases outcome <;> rfl

theorem runJob_moves {outcome : Outcome}
    (stepped : runJob env state id outcome = some next) :
    Moves lost state next := by
  simp only [runJob] at stepped
  split at stepped
  · next work _ =>
    cases stepped
    rw [perform_eq]
    exact .keeps rfl rfl fun _ => rfl
  · cases stepped

theorem learnRequest_moves {source : String} {now : Int}
    (stepped : learnRequest env state id source now = some next) :
    Moves lost state next := by
  simp only [learnRequest] at stepped
  split at stepped
  · next enabled =>
    cases stepped
    refine .advance rfl rfl rfl ?_
    have unused : state.tasks id = none := by simpa using enabled.2.2.1
    simp [AppState.replacing, unused, Task.replacing]
  · cases stepped

theorem learnResolve_moves (stepped : learnResolve env state id = some next) :
    Moves lost state next := by
  simp only [learnResolve] at stepped
  split at stepped
  · next running =>
    have idle := replacing_of_task running
    split at stepped
    · split at stepped
      · split at stepped
        · cases stepped
          exact .advance rfl rfl rfl idle.symm
        · cases stepped
          exact .finished rfl rfl rfl idle
      · cases stepped
        exact .finished rfl rfl rfl idle
    · cases stepped
      exact .finished rfl rfl rfl idle
  · cases stepped

theorem learnExisting_moves (stepped : learnExisting state id = some next) :
    Moves lost state next := by
  simp only [learnExisting] at stepped
  split at stepped
  · next running =>
    cases stepped
    exact .advance rfl rfl rfl (replacing_of_task running).symm
  · cases stepped

theorem learnAnswer_moves {answer : StyleAnswer Document}
    (stepped : learnAnswer env state id answer = some next) :
    Moves lost state next := by
  simp only [learnAnswer] at stepped
  split at stepped
  · next running =>
    have idle := replacing_of_task running
    split at stepped
    · cases stepped
      exact .finished rfl rfl rfl idle
    · cases stepped
      exact .advance rfl rfl rfl idle.symm
    · split at stepped
      · cases stepped
        exact .advance rfl rfl rfl idle.symm
      · cases stepped
        exact .finished rfl rfl rfl idle
  · cases stepped

theorem installStyle_moves {style : StyleState Document} {generation : Nat}
    {definition : ChartLocker.Catalog.ChartSource} {renewed : Bool}
    (free : state.configUpdate = none) (idle : state.replacing id = false) :
    Moves lost state
      (installStyle env state id style generation definition renewed) := by
  refine .acquires id free idle rfl rfl fun other => ?_
  refine (@replacing_update Document state _ id
    (some (.learn style.source generation (.persisting style))) rfl
    other).trans ?_
  split
  · next same => exact same ▸ idle.symm
  · rfl

theorem learnCommit_moves {now : Int}
    (stepped : learnCommit env state id now = some next) :
    Moves lost state next := by
  simp only [learnCommit] at stepped
  split at stepped
  · next running free =>
    have idle := replacing_of_task running
    split at stepped
    · split at stepped
      · cases stepped
        exact installStyle_moves free idle
      · cases stepped
        exact .finished rfl rfl rfl idle
    · cases stepped
      exact .finished rfl rfl rfl idle
  · next running free =>
    have idle := replacing_of_task running
    split at stepped
    · split at stepped
      · cases stepped
        exact .finished rfl rfl rfl idle
      · cases stepped
        exact installStyle_moves free idle
    · cases stepped
      exact .finished rfl rfl rfl idle
  · cases stepped

theorem learnPersist_moves (stepped : learnPersist env state id = some next) :
    Moves lost state next := by
  simp only [learnPersist] at stepped
  split at stepped
  · next running =>
    have idle := replacing_of_task running
    split at stepped
    · split at stepped
      · cases stepped
        exact .advance rfl rfl rfl idle.symm
      · cases stepped
        exact .finished rfl rfl rfl idle
    · cases stepped
      exact .finished rfl rfl rfl idle
  · cases stepped

theorem learnFinish_moves (stepped : learnFinish state id = some next) :
    Moves lost state next := by
  simp only [learnFinish] at stepped
  split at stepped
  · next running _ =>
    cases stepped
    exact .finished rfl rfl rfl (replacing_of_task running)
  · cases stepped

theorem configRequest_moves {body : ConfigBody}
    (stepped : configRequest state id body = some next) :
    Moves lost state next := by
  simp only [configRequest] at stepped
  split at stepped
  · next enabled =>
    cases stepped
    refine .advance rfl rfl rfl ?_
    have unused : state.tasks id = none := by simpa using enabled.1
    simp [AppState.replacing, unused, Task.replacing]
  · cases stepped

theorem lockHolder_moves (stepped : lockHolder state id = some next) :
    Moves lost state next := by
  simp only [lockHolder] at stepped
  split at stepped
  · next enabled =>
    cases stepped
    have unused : state.tasks id = none := by simpa using enabled.1
    have idle : state.replacing id = false := by
      simp [AppState.replacing, unused]
    refine .acquires id (by simpa using enabled.2.2) idle rfl rfl
      fun other => ?_
    refine (@replacing_update Document state _ id (some .holder) rfl
      other).trans ?_
    split
    · next same => exact same ▸ idle.symm
    · rfl
  · cases stepped

theorem unlockHolder_moves (stepped : unlockHolder state id = some next) :
    Moves lost state next := by
  simp only [unlockHolder] at stepped
  split at stepped
  · next running =>
    cases stepped
    exact .finished rfl rfl rfl (replacing_of_task running)
  · cases stepped

theorem dropTask_moves (stepped : dropTask state id = some next) :
    Moves (state.replacing id = true) state next := by
  simp only [dropTask] at stepped
  split at stepped
  · cases stepped
    by_cases replaced : state.replacing id = true
    · exact .aborts id replaced replaced rfl rfl
        (@replacing_update Document state _ id none rfl)
    · exact .finished rfl rfl rfl (by simpa using replaced)
  · cases stepped

end Steps

/-- The step loses a push between its first and its last increment. -/
def losesPush (state : AppState Document) : Label Document → Prop
  | .drop id => state.replacing id = true
  | _ => False

theorem step_moves {env : Environment Document}
    {state next : AppState Document} {label : Label Document}
    (stepped : step env state label = some next) :
    Moves (losesPush state label) state next := by
  cases label with
  | configRequest id body => exact configRequest_moves stepped
  | configBegin id => exact configBegin_moves stepped
  | configSources id => exact configSources_moves stepped
  | configReconcile id => exact configReconcile_moves stepped
  | configResume id => exact configResume_moves stepped
  | configInstall id => exact configInstall_moves stepped
  | configPublish id => exact configPublish_moves stepped
  | runJob id outcome => exact runJob_moves stepped
  | learnRequest id source now => exact learnRequest_moves stepped
  | learnResolve id => exact learnResolve_moves stepped
  | learnExisting id => exact learnExisting_moves stepped
  | learnAnswer id answer => exact learnAnswer_moves stepped
  | learnCommit id now => exact learnCommit_moves stepped
  | learnPersist id => exact learnPersist_moves stepped
  | learnFinish id => exact learnFinish_moves stepped
  | lockHolder id => exact lockHolder_moves stepped
  | unlockHolder id => exact unlockHolder_moves stepped
  | scrollTtl ttl =>
      cases stepped
      refine .keeps ?_ ?_ fun other => ?_ <;>
        simp only [setScrollTtl] <;> split <;> rfl
  | cacheCall op =>
      cases stepped
      exact .keeps rfl rfl fun _ => rfl
  | drop id => exact dropTask_moves stepped
  | boot deferred =>
      cases stepped
      exact .boots rfl rfl fun _ => rfl

/-! ## The parity -/

/-- A push which replaces the configuration holds the lock. -/
def Owned (state : AppState Document) : Prop :=
  ∀ id, state.replacing id = true → state.configUpdate = some id

theorem Owned.idle {state : AppState Document} (owned : Owned state)
    (free : state.configUpdate = none) (id : Nat) :
    state.replacing id = false := by
  by_contra replacing
  rw [owned id (by simpa using replacing)] at free
  cases free

theorem Owned.unique {state : AppState Document} (owned : Owned state)
    {left right : Nat} (first : state.replacing left = true)
    (second : state.replacing right = true) : left = right :=
  Option.some.inj ((owned left first).symm.trans (owned right second))

theorem Owned.moves {lost : Prop} {state next : AppState Document}
    (owned : Owned state) (moves : Moves lost state next) : Owned next := by
  have closes : ∀ id, (∀ other, next.replacing other =
        if other = id then false else state.replacing other) →
      state.replacing id = true → Owned next := by
    intro id pushes replaced other replacing
    rw [pushes] at replacing
    split at replacing
    · cases replacing
    · next different => exact absurd (owned.unique replacing replaced) different
  cases moves with
  | keeps generation lock pushes =>
      intro id
      rw [pushes, lock]
      exact owned id
  | acquires id free idle generation lock pushes =>
      intro other replacing
      rw [pushes, owned.idle free] at replacing
      cases replacing
  | releases id idle generation lock pushes =>
      intro other replacing
      rw [pushes] at replacing
      have different : other ≠ id := by
        rintro rfl
        rw [idle] at replacing
        cases replacing
      simpa [lock, owned other replacing] using different
  | begins id free generation lock pushes =>
      intro other replacing
      rw [pushes] at replacing
      split at replacing
      · next same => rw [lock, same]
      · rw [owned.idle free] at replacing
        cases replacing
  | ends id replaced generation lock pushes =>
      exact closes id pushes replaced
  | aborts id loss replaced generation lock pushes =>
      exact closes id pushes replaced
  | boots generation lock pushes =>
      intro id replacing
      rw [pushes] at replacing
      cases replacing

/-- The generation is odd exactly while a push replaces the configuration. -/
structure Parity (state : AppState Document) : Prop where
  owned : Owned state
  odd : Odd state.configGeneration ↔ ∃ id, state.replacing id = true

theorem Parity.even_of_free {state : AppState Document}
    (parity : Parity state) (free : state.configUpdate = none) :
    Even state.configGeneration := by
  rw [← Nat.not_odd_iff_even, parity.odd]
  rintro ⟨id, replacing⟩
  rw [parity.owned.idle free] at replacing
  cases replacing

theorem Parity.moves {lost : Prop} {state next : AppState Document}
    (parity : Parity state) (moves : Moves lost state next)
    (kept : ¬ lost) : Parity next := by
  refine ⟨parity.owned.moves moves, ?_⟩
  cases moves with
  | keeps generation lock pushes =>
      simpa only [generation, pushes] using parity.odd
  | acquires id free idle generation lock pushes =>
      simpa only [generation, pushes] using parity.odd
  | releases id idle generation lock pushes =>
      simpa only [generation, pushes] using parity.odd
  | begins id free generation lock pushes =>
      have even := parity.even_of_free free
      rw [generation]
      exact ⟨fun _ => ⟨id, by simp [pushes]⟩, fun _ => even.add_one⟩
  | ends id replaced generation lock pushes =>
      have others : ∀ other, next.replacing other = false := by
        intro other
        rw [pushes]
        split
        · rfl
        · next different =>
          by_contra replacing
          exact different
            (parity.owned.unique (by simpa using replacing) replaced)
      have odd := parity.odd.mpr ⟨id, replaced⟩
      rw [generation]
      simp [others, Nat.odd_add_one, odd]
  | aborts id loss => exact absurd loss kept
  | boots generation lock pushes =>
      simp [generation, pushes]

theorem owned_firstBoot (env : Environment Document) :
    Owned (firstBoot env) := by
  intro id replacing
  simp [AppState.replacing, firstBoot, AppState.booted] at replacing

theorem owned_of_reachable {env : Environment Document}
    {state : AppState Document}
    (reached : (configMachine env).Reachable state) : Owned state := by
  refine reached.invariant ?_ ?_
  · rintro first rfl
    exact owned_firstBoot env
  · exact fun _ _ _ owned stepped => owned.moves (step_moves stepped)

theorem parity_firstBoot (env : Environment Document) :
    Parity (firstBoot env) where
  owned := owned_firstBoot env
  odd := by simp [AppState.replacing, firstBoot, AppState.booted]

theorem parity_exec {env : Environment Document}
    {labels : List (Label Document)}
    {final : AppState Document}
    (run : (configMachine env).exec (firstBoot env) labels = some final)
    (kept : (configMachine env).AllSteps
      (fun state label => ¬ losesPush state label) (firstBoot env) labels) :
    Parity final :=
  Machine.exec_preserves_of_allSteps
    (fun _ _ _ parity met stepped => parity.moves (step_moves stepped) met)
    run kept (parity_firstBoot env)

/-- A lost push leaves the lock free and the generation odd. -/
theorem odd_of_losesPush {env : Environment Document}
    {state next : AppState Document} {label : Label Document}
    (parity : Parity state) (loss : losesPush state label)
    (stepped : step env state label = some next) :
    next.configUpdate = none ∧ Odd next.configGeneration := by
  cases label with
  | drop id =>
      have owned := parity.owned id loss
      simp only [step, dropTask] at stepped
      split at stepped
      · cases stepped
        exact ⟨by simp [AppState.finish, owned],
          parity.odd.mpr ⟨id, loss⟩⟩
      · cases stepped
  | _ => exact absurd loss id

/-- In a run the generation is even at every moment at which `config_update`
is free if and only if no push is lost between its first and its last
increment. -/
theorem even_when_free_iff_no_push_lost {env : Environment Document}
    {labels : List (Label Document)} {final : AppState Document}
    (run : (configMachine env).exec (firstBoot env) labels = some final) :
    (∀ done rest state, labels = done ++ rest →
      (configMachine env).exec (firstBoot env) done = some state →
      state.configUpdate = none → Even state.configGeneration) ↔
    (configMachine env).AllSteps
      (fun state label => ¬ losesPush state label) (firstBoot env)
      labels := by
  constructor
  · intro even
    rcases Machine.allSteps_or_first
      (fun state label => ¬ losesPush state label) run with
      all | ⟨before, label, after, state, next, rfl, reached, stepped,
        earlier, loss⟩
    · exact all
    · exfalso
      obtain ⟨free, odd⟩ := odd_of_losesPush (parity_exec reached earlier)
        (not_not.mp loss) stepped
      have reachedNext : (configMachine env).exec (firstBoot env)
          (before ++ [label]) = some next :=
        Machine.exec_append_eq_some.mpr ⟨state, reached,
          Machine.exec_cons_eq_some.mpr ⟨next, stepped, rfl⟩⟩
      exact (Nat.not_even_iff_odd.mpr odd)
        (even (before ++ [label]) after next (by simp) reachedNext free)
  · rintro kept done rest state rfl reached free
    exact (parity_exec reached
      (Machine.allSteps_append.mp kept).1).even_of_free free

/-- A deployment whose catalog is never rejected and whose documents are
numbers. -/
def sampleEnvironment : Environment Nat where
  allowPrivateEgress := false
  freshSecs := 86400
  capBytes := 1000
  scrollTtlSecs := 0
  geocodingEnabled := true
  sourceValid := fun _ _ => true
  sourceSignature := fun source => some source.title
  styleUrlAllowed := fun _ _ _ => true
  learnContent := fun _ document _ =>
    some ⟨none, [("tiles", ["https://tiles.example/{z}/{x}/{y}"])], [], [],
      [], none, document⟩
  encodedLength := fun _ => 100
  validPersisted := fun _ _ _ => true

def sampleBody : ConfigBody where
  sources := []
  publicBase := none
  capBytes := none
  regionsBudgetBytes := none
  positionWarmBudgetBytes := none
  scrollTtlSecs := none
  geocodingEnabled := none

/-- A push whose client disconnects while the cap is being enforced. -/
def lostPush : List (Label Nat) :=
  [.configRequest 1 sampleBody, .configBegin 1, .drop 1]

theorem lostPush_leaves_odd :
    ∃ state, (configMachine sampleEnvironment).exec
        (firstBoot sampleEnvironment) lostPush = some state ∧
      state.configUpdate = none ∧ state.configGeneration = 1 ∧
      ∀ id source now,
        learnRequest sampleEnvironment state id source now = none :=
  ⟨_, rfl, rfl, rfl, fun _ _ _ => rfl⟩

theorem even_when_free_iff_no_push_lost_lostPush :
    ∃ final, (configMachine sampleEnvironment).exec
        (firstBoot sampleEnvironment) lostPush = some final ∧
      ¬ (configMachine sampleEnvironment).AllSteps
        (fun state label => ¬ losesPush state label)
        (firstBoot sampleEnvironment) lostPush := by
  refine ⟨_, rfl, ?_⟩
  rw [← even_when_free_iff_no_push_lost rfl]
  intro even
  have parity := even lostPush [] _ rfl rfl rfl
  exact absurd parity (by decide)

end ChartLocker.Config
