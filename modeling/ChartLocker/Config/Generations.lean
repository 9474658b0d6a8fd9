import ChartLocker.Config.Rehydration

/-!
# Generations and the entries which record them

A style entry is valid only for the generation which it records.  No entry is
more than one generation ahead, and a push and a learn which nothing interrupts
end in an entry whose namespace is the generation.
-/

namespace ChartLocker.Config

open Library Cache Catalog

variable {Document : Type}

/-! ## Entries of a later generation -/

/-- How far ahead of the generation a task can be. -/
def Task.bounded (entries : List (StyleState Document)) (generation : Nat) :
    Task Document → Prop
  | .config _ (.enforcing _) =>
      0 < generation ∧
        ∀ style ∈ entries, style.configGeneration ≤ generation
  | .config _ (.readingSources published) => published ≤ generation + 1
  | .config _ (.reconciling published _) => published ≤ generation + 1
  | .config _ (.deletingInvalid restored) =>
      ∀ style ∈ restored, style.configGeneration ≤ generation + 1
  | .config _ (.installing restored) =>
      ∀ style ∈ restored, style.configGeneration ≤ generation + 1
  | _ => True

/-- No entry is more than one generation ahead, and none is ahead while the
cap is being enforced. -/
structure Ahead (state : AppState Document) : Prop where
  entries : ∀ style ∈ state.styleState.rows,
    style.configGeneration ≤ state.configGeneration + 1
  tasks : ∀ id task, state.tasks id = some task →
    task.bounded state.styleState.rows state.configGeneration

section Ahead

variable {env : Environment Document} {state next : AppState Document}
  {id : Nat}

theorem Task.bounded.mono {task : Task Document}
    {entries : List (StyleState Document)} {generation later : Nat}
    (bounded : task.bounded entries generation) (le : generation ≤ later) :
    task.bounded entries later := by
  unfold Task.bounded at bounded ⊢
  split at bounded
  · exact ⟨bounded.1.trans_le le,
      fun style member => (bounded.2 style member).trans le⟩
  · exact bounded.trans (Nat.add_le_add_right le 1)
  · exact bounded.trans (Nat.add_le_add_right le 1)
  · exact fun style member =>
      (bounded style member).trans (Nat.add_le_add_right le 1)
  · exact fun style member =>
      (bounded style member).trans (Nat.add_le_add_right le 1)
  · trivial

theorem task_of_update {other : Nat} {task : Option (Task Document)}
    {moved : Task Document} (tasks : Nat → Option (Task Document))
    (running : Function.update tasks id task other = some moved) :
    (other = id ∧ task = some moved) ∨
      (other ≠ id ∧ tasks other = some moved) := by
  by_cases same : other = id
  · rw [same, Function.update_self] at running
    exact .inl ⟨same, running⟩
  · rw [Function.update_of_ne same] at running
    exact .inr ⟨same, running⟩

/-- A step which leaves the entries alone and moves one task. -/
theorem Ahead.advance (ahead : Ahead state) {task : Option (Task Document)}
    (generation : state.configGeneration ≤ next.configGeneration)
    (entries : next.styleState = state.styleState)
    (tasks : next.tasks = Function.update state.tasks id task)
    (bounded : ∀ moved, task = some moved →
      moved.bounded state.styleState.rows next.configGeneration) :
    Ahead next := by
  refine ⟨?_, ?_⟩
  · intro style member
    rw [entries] at member
    exact (ahead.entries style member).trans
      (Nat.add_le_add_right generation 1)
  · intro other moved running
    rw [entries]
    rw [tasks] at running
    rcases task_of_update state.tasks running with ⟨_, same⟩ | ⟨_, unmoved⟩
    · exact bounded moved same
    · exact (ahead.tasks other moved unmoved).mono generation

theorem Ahead.finish (ahead : Ahead state)
    (generation : state.configGeneration ≤ next.configGeneration)
    (entries : next.styleState = state.styleState)
    (tasks : next.tasks = Function.update state.tasks id none) :
    Ahead next :=
  ahead.advance generation entries tasks fun _ impossible => by
    cases impossible

theorem Ahead.same (ahead : Ahead state)
    (generation : next.configGeneration = state.configGeneration)
    (entries : next.styleState = state.styleState)
    (tasks : next.tasks = state.tasks) : Ahead next := by
  refine ⟨?_, ?_⟩
  · rw [entries, generation]
    exact ahead.entries
  · rw [entries, generation, tasks]
    exact ahead.tasks

theorem configBegin_ahead (ahead : Ahead state)
    (stepped : configBegin env state id = some next) : Ahead next := by
  simp only [configBegin] at stepped
  split at stepped
  · split at stepped
    · cases stepped
      exact ahead.finish le_rfl rfl rfl
    · cases stepped
      refine ahead.advance (Nat.le_succ _) rfl rfl ?_
      rintro _ ⟨⟩
      exact ⟨Nat.succ_pos _, ahead.entries⟩
  · cases stepped

theorem configSources_ahead (ahead : Ahead state)
    (stepped : configSources state id = some next) : Ahead next := by
  simp only [configSources] at stepped
  split at stepped
  · cases stepped
    refine ahead.advance le_rfl rfl rfl ?_
    rintro _ ⟨⟩
    exact le_rfl
  · cases stepped

theorem configReconcile_ahead (ahead : Ahead state)
    (stepped : configReconcile env state id = some next) : Ahead next := by
  simp only [configReconcile] at stepped
  split at stepped
  · next running =>
    cases stepped
    have before := ahead.tasks id _ running
    refine ahead.advance le_rfl rfl rfl ?_
    rintro _ ⟨⟩
    exact before
  · cases stepped

theorem configResume_ahead (ahead : Ahead state)
    (stepped : configResume env state id = some next) : Ahead next := by
  simp only [configResume] at stepped
  split at stepped
  · cases stepped
    refine ahead.advance le_rfl rfl rfl ?_
    rintro _ ⟨⟩
    trivial
  · cases stepped
    exact ahead.finish (Nat.le_succ _) rfl rfl
  · next body published catalog rows running _ =>
    have bound : published ≤ state.configGeneration + 1 :=
      ahead.tasks id _ running
    have restored : ∀ style ∈ (rows.filter (validRetained env catalog)).map
        (fun row => row.state.intoLive row.source published),
        style.configGeneration ≤ state.configGeneration + 1 := by
      intro style member
      obtain ⟨row, _, rfl⟩ := List.mem_map.mp member
      exact bound
    split at stepped
    · cases stepped
      refine ahead.advance le_rfl rfl rfl ?_
      rintro _ ⟨⟩
      exact restored
    · cases stepped
      refine ahead.advance le_rfl rfl rfl ?_
      rintro _ ⟨⟩
      exact restored
  · cases stepped
    refine ahead.advance le_rfl rfl rfl ?_
    rintro _ ⟨⟩
    exact fun style member => by cases member
  · next running _ =>
    cases stepped
    have before := ahead.tasks id _ running
    refine ahead.advance le_rfl rfl rfl ?_
    rintro _ ⟨⟩
    exact before
  · cases stepped

theorem configInstall_ahead (ahead : Ahead state) (owned : Owned state)
    (stepped : configInstall state id = some next) : Ahead next := by
  simp only [configInstall] at stepped
  split at stepped
  · next body restored running =>
    cases stepped
    have installed : ∀ style ∈ (restored.foldl KeyedTable.insertOrReplace
        (KeyedTable.empty : KeyedTable (@StyleState.source Document))).rows,
        style.configGeneration ≤ state.configGeneration + 1 := by
      intro style member
      rcases KeyedTable.mem_of_mem_foldl_insertOrReplace member with
        none | some
      · cases none
      · exact ahead.tasks id _ running style some
    refine ⟨installed, ?_⟩
    intro other task moved
    rcases task_of_update state.tasks moved with
      ⟨_, same⟩ | ⟨different, unmoved⟩
    · cases same
      trivial
    · have before := ahead.tasks other task unmoved
      -- Two pushes never replace the configuration together, so that the
      -- other task is not one which enforces the cap.
      unfold Task.bounded at before ⊢
      split at before
      · have both := owned.unique (replacing_of_task unmoved)
          (replacing_of_task running)
        exact absurd both different
      all_goals exact before
  · cases stepped

theorem configPublish_ahead (ahead : Ahead state)
    (stepped : configPublish state id = some next) : Ahead next := by
  simp only [configPublish] at stepped
  split at stepped
  · cases stepped
    exact ahead.finish (Nat.le_succ _) rfl rfl
  · cases stepped

theorem installStyle_ahead (ahead : Ahead state)
    {style : StyleState Document} {generation : Nat}
    {definition : ChartSource} {renewed : Bool}
    (current : style.configGeneration = state.configGeneration) :
    Ahead (installStyle env state id style generation definition
      renewed) := by
  refine ⟨?_, ?_⟩
  · intro entry member
    rcases KeyedTable.mem_insertOrReplace.mp member with rfl | ⟨old, _⟩
    · exact current.le.trans (Nat.le_succ _)
    · exact ahead.entries entry old
  · intro other task moved
    rcases task_of_update state.tasks moved with
      ⟨_, same⟩ | ⟨_, unmoved⟩
    · cases same
      trivial
    · have before := ahead.tasks other task unmoved
      unfold Task.bounded at before ⊢
      split at before
      · refine ⟨before.1, fun entry member => ?_⟩
        rcases KeyedTable.mem_insertOrReplace.mp member with rfl | ⟨old, _⟩
        · exact current.le
        · exact before.2 entry old
      all_goals exact before

theorem learnCommit_ahead (ahead : Ahead state) {now : Int}
    (stepped : learnCommit env state id now = some next) : Ahead next := by
  simp only [learnCommit] at stepped
  split at stepped
  · split at stepped
    · next current =>
      split at stepped
      · next existing found =>
        cases stepped
        apply installStyle_ahead ahead
        have kept := (Option.filter_eq_some_iff.mp found).2
        simpa [current] using kept
      · cases stepped
        exact ahead.finish le_rfl rfl rfl
    · cases stepped
      exact ahead.finish le_rfl rfl rfl
  · split at stepped
    · next current =>
      split at stepped
      · cases stepped
        exact ahead.finish le_rfl rfl rfl
      · cases stepped
        exact installStyle_ahead ahead current.symm
    · cases stepped
      exact ahead.finish le_rfl rfl rfl
  · cases stepped

theorem learnResolve_ahead (ahead : Ahead state)
    (stepped : learnResolve env state id = some next) : Ahead next := by
  simp only [learnResolve] at stepped
  split at stepped
  · split at stepped
    · split at stepped
      · split at stepped
        · cases stepped
          refine ahead.advance le_rfl rfl rfl ?_
          rintro _ ⟨⟩
          trivial
        · cases stepped
          exact ahead.finish le_rfl rfl rfl
      · cases stepped
        exact ahead.finish le_rfl rfl rfl
    · cases stepped
      exact ahead.finish le_rfl rfl rfl
  · cases stepped

theorem learnAnswer_ahead (ahead : Ahead state)
    {answer : StyleAnswer Document}
    (stepped : learnAnswer env state id answer = some next) :
    Ahead next := by
  simp only [learnAnswer] at stepped
  split at stepped
  · split at stepped
    · cases stepped
      exact ahead.finish le_rfl rfl rfl
    · cases stepped
      refine ahead.advance le_rfl rfl rfl ?_
      rintro _ ⟨⟩
      trivial
    · split at stepped
      · cases stepped
        refine ahead.advance le_rfl rfl rfl ?_
        rintro _ ⟨⟩
        trivial
      · cases stepped
        exact ahead.finish le_rfl rfl rfl
  · cases stepped

theorem learnPersist_ahead (ahead : Ahead state)
    (stepped : learnPersist env state id = some next) : Ahead next := by
  simp only [learnPersist] at stepped
  split at stepped
  · split at stepped
    · split at stepped
      · cases stepped
        refine ahead.advance le_rfl rfl rfl ?_
        rintro _ ⟨⟩
        trivial
      · cases stepped
        exact ahead.finish le_rfl rfl rfl
    · cases stepped
      exact ahead.finish le_rfl rfl rfl
  · cases stepped

theorem ahead_booted (env : Environment Document) (deferred : Bool)
    (state : AppState Document) : Ahead (state.booted env deferred) where
  entries := by
    intro style member
    cases member
  tasks := by
    intro other task running
    cases running

theorem step_ahead (ahead : Ahead state) (owned : Owned state)
    {label : Label Document} (stepped : step env state label = some next) :
    Ahead next := by
  cases label with
  | configRequest id body =>
      simp only [step, configRequest] at stepped
      split at stepped <;> cases stepped
      refine ahead.advance le_rfl rfl rfl ?_
      rintro _ ⟨⟩
      trivial
  | configBegin id => exact configBegin_ahead ahead stepped
  | configSources id => exact configSources_ahead ahead stepped
  | configReconcile id => exact configReconcile_ahead ahead stepped
  | configResume id => exact configResume_ahead ahead stepped
  | configInstall id => exact configInstall_ahead ahead owned stepped
  | configPublish id => exact configPublish_ahead ahead stepped
  | runJob id outcome =>
      simp only [step, runJob] at stepped
      split at stepped <;> cases stepped
      rw [perform_eq]
      exact ahead.same rfl rfl rfl
  | learnRequest id source now =>
      simp only [step, learnRequest] at stepped
      split at stepped <;> cases stepped
      refine ahead.advance le_rfl rfl rfl ?_
      rintro _ ⟨⟩
      trivial
  | learnResolve id => exact learnResolve_ahead ahead stepped
  | learnExisting id =>
      simp only [step, learnExisting] at stepped
      split at stepped <;> cases stepped
      refine ahead.advance le_rfl rfl rfl ?_
      rintro _ ⟨⟩
      trivial
  | learnAnswer id answer => exact learnAnswer_ahead ahead stepped
  | learnCommit id now => exact learnCommit_ahead ahead stepped
  | learnPersist id => exact learnPersist_ahead ahead stepped
  | learnFinish id =>
      simp only [step, learnFinish] at stepped
      split at stepped <;> cases stepped
      exact ahead.finish le_rfl rfl rfl
  | lockHolder id =>
      simp only [step, lockHolder] at stepped
      split at stepped <;> cases stepped
      refine ahead.advance le_rfl rfl rfl ?_
      rintro _ ⟨⟩
      trivial
  | unlockHolder id =>
      simp only [step, unlockHolder] at stepped
      split at stepped <;> cases stepped
      exact ahead.finish le_rfl rfl rfl
  | scrollTtl ttl =>
      cases stepped
      simp only [setScrollTtl]
      split
      · exact ahead.same rfl rfl rfl
      · exact ahead
  | cacheCall op =>
      cases stepped
      exact ahead.same rfl rfl rfl
  | drop id =>
      simp only [step, dropTask] at stepped
      split at stepped <;> cases stepped
      exact ahead.finish le_rfl rfl rfl
  | boot deferred =>
      cases stepped
      exact ahead_booted env deferred state

end Ahead

/-! ## Steps beside a push -/

section Beside

variable {env : Environment Document} {state next : AppState Document}
  {label : Label Document}

/-- No step but the first of a push begins to replace the configuration. -/
theorem replacing_of_step (stepped : step env state label = some next)
    (pushless : ∀ id, label ≠ .configBegin id) {id : Nat}
    (replacing : next.replacing id = true) : state.replacing id = true := by
  by_cases own : label.owner = some id
  · cases label with
    | configBegin id => exact absurd rfl (pushless id)
    | scrollTtl | cacheCall | boot => cases own
    | runJob other outcome =>
        simp only [step, runJob] at stepped
        split at stepped <;> cases stepped
        rw [perform_eq] at replacing
        exact replacing
    | configRequest other | configSources other
    | configReconcile other | configResume other | configInstall other
    | configPublish other | learnRequest other | learnResolve other
    | learnExisting other
    | learnAnswer other | learnCommit other | learnPersist other
    | learnFinish other
    | lockHolder other | unlockHolder other | drop other =>
        cases own
        simp only [step, configRequest, configSources,
          configReconcile, configResume, configInstall, configPublish,
          learnRequest, learnResolve, learnExisting, learnAnswer, learnCommit,
          learnPersist, learnFinish, lockHolder, unlockHolder, dropTask]
          at stepped
        repeat' split at stepped
        all_goals first
          | contradiction
          | (cases stepped
             simp_all [AppState.replacing, Task.replacing, AppState.finish,
              AppState.setTask, AppState.setJob, AppState.toPhase,
              AppState.toLearnPhase, AppState.spawn, AppState.increment,
              installStyle])
  · by_cases boots : ∃ deferred, label = .boot deferred
    · obtain ⟨deferred, rfl⟩ := boots
      cases stepped
      cases replacing
    · have same := (beside_of_step stepped fun deferred same =>
        boots ⟨deferred, same⟩).tasks id own
      simpa [AppState.replacing, same] using replacing

/-- Only a push which ends moves the generation, apart from the first step of
a push and a boot. -/
theorem generation_kept_of_step (stepped : step env state label = some next)
    (pushless : ∀ id, label ≠ .configBegin id)
    (awake : ∀ deferred, label ≠ .boot deferred)
    (quiet : ∀ id, label.owner = some id → state.replacing id = false) :
    next.configGeneration = state.configGeneration := by
  cases label with
  | boot deferred => exact absurd rfl (awake deferred)
  | configBegin id => exact absurd rfl (pushless id)
  | scrollTtl ttl =>
      cases stepped
      simp only [setScrollTtl]
      split <;> rfl
  | cacheCall op =>
      cases stepped
      rfl
  | runJob id outcome =>
      simp only [step, runJob] at stepped
      split at stepped <;> cases stepped
      rw [perform_eq]
      rfl
  | configResume id | configPublish id =>
      have idle := quiet id rfl
      simp only [step, configResume, configPublish] at stepped
      repeat' split at stepped
      all_goals first
        | contradiction
        | (cases stepped; rfl)
        | (cases stepped
           simp_all [AppState.replacing, Task.replacing])
  | configRequest id | configSources id | configReconcile id
  | configInstall id | learnRequest id | learnResolve id | learnExisting id
  | learnAnswer id | learnCommit id | learnPersist id | learnFinish id
  | lockHolder id | unlockHolder id | drop id =>
      simp only [step, configRequest, configSources, configReconcile,
        configInstall, learnRequest, learnResolve, learnExisting,
        learnAnswer, learnCommit, learnPersist, learnFinish, lockHolder,
        unlockHolder, dropTask] at stepped
      repeat' split at stepped
      all_goals first
        | contradiction
        | (cases stepped; rfl)

/-- A push waits for its cap to be enforced until its handler goes on or is
dropped, and the generation stays as it is. -/
theorem enforcing_of_step (owned : Owned state) {id : Nat}
    {body : ConfigBody} {cap : Int}
    (running : state.tasks id = some (.config body (.enforcing cap)))
    (stepped : step env state label = some next)
    (awake : ∀ deferred, label ≠ .boot deferred) (kept : label ≠ .drop id)
    (waits : label ≠ .configResume id) :
    next.tasks id = state.tasks id ∧
      next.configGeneration = state.configGeneration := by
  have replacing : state.replacing id = true := replacing_of_task running
  have locked := owned id replacing
  by_cases own : label.owner = some id
  · cases label with
    | drop other =>
        cases own
        exact absurd rfl kept
    | configResume other =>
        cases own
        exact absurd rfl waits
    | scrollTtl | cacheCall | boot => cases own
    | runJob other outcome =>
        simp only [step, runJob] at stepped
        split at stepped <;> cases stepped
        rw [perform_eq]
        exact ⟨rfl, rfl⟩
    | configRequest other | configBegin other | configSources other
    | configReconcile other | configInstall other | configPublish other
    | learnRequest other | learnResolve other | learnExisting other
    | learnAnswer other | learnCommit other | learnPersist other
    | learnFinish other | lockHolder other | unlockHolder other =>
        cases own
        simp [step, configRequest, configBegin, configSources,
          configReconcile, configInstall, configPublish, learnRequest,
          learnResolve, learnExisting, learnAnswer, learnCommit,
          learnPersist, learnFinish, lockHolder, unlockHolder, running]
          at stepped
  · refine ⟨(beside_of_step stepped awake).tasks id own,
      generation_kept_of_step stepped ?_ awake ?_⟩
    · rintro other rfl
      simp only [step, configBegin, locked] at stepped
      split at stepped <;> simp_all
    · intro other named
      by_contra replaced
      have same := owned.unique (by simpa using replaced) replacing
      exact own (named.trans (congrArg some same))

/-- A push which waits for its cap to be enforced is where it was, whatever
else goes on. -/
theorem enforcing_of_exec (owned : Owned state) {id : Nat}
    {body : ConfigBody} {cap : Int}
    (running : state.tasks id = some (.config body (.enforcing cap)))
    {labels : List (Label Document)}
    (run : (configMachine env).exec state labels = some next)
    (awake : ∀ label ∈ labels, ∀ deferred, label ≠ .boot deferred)
    (waits : ∀ label ∈ labels,
      label ≠ .drop id ∧ label ≠ .configResume id) :
    next.tasks id = some (.config body (.enforcing cap)) ∧
      next.configGeneration = state.configGeneration := by
  induction labels generalizing state with
  | nil =>
      obtain rfl : state = next := by simpa using run
      exact ⟨running, rfl⟩
  | cons label rest induction =>
      obtain ⟨mid, stepped, later⟩ := Machine.exec_cons_eq_some.mp run
      obtain ⟨kept, goes⟩ := waits label List.mem_cons_self
      obtain ⟨task, generation⟩ := enforcing_of_step owned running stepped
        (awake label List.mem_cons_self) kept goes
      have ended := induction (owned.moves (step_moves stepped))
        (task.trans running) later
        (fun other member => awake other (List.mem_cons_of_mem _ member))
        (fun other member => waits other (List.mem_cons_of_mem _ member))
      exact ⟨ended.1, ended.2.trans generation⟩

/-- Without a push the generation stays as it is. -/
theorem generation_of_exec
    (quiet : ∀ id, state.replacing id = false)
    {labels : List (Label Document)}
    (run : (configMachine env).exec state labels = some next)
    (awake : ∀ label ∈ labels, ∀ deferred, label ≠ .boot deferred)
    (pushless : ∀ label ∈ labels, ∀ id, label ≠ .configBegin id) :
    next.configGeneration = state.configGeneration := by
  induction labels generalizing state with
  | nil =>
      obtain rfl : state = next := by simpa using run
      rfl
  | cons label rest induction =>
      obtain ⟨mid, stepped, later⟩ := Machine.exec_cons_eq_some.mp run
      have first := pushless label List.mem_cons_self
      have still : ∀ id, mid.replacing id = false := by
        intro id
        by_contra begun
        have earlier := replacing_of_step stepped first
          (by simpa using begun)
        rw [quiet id] at earlier
        cases earlier
      have ended := induction still later
        (fun other member => awake other (List.mem_cons_of_mem _ member))
        (fun other member => pushless other (List.mem_cons_of_mem _ member))
      exact ended.trans (generation_kept_of_step stepped first
        (awake label List.mem_cons_self) fun id _ => quiet id)

/-- A push which comes to enforce its cap has found the lock free. -/
theorem configBegin_enforces {id : Nat} {body : ConfigBody} {cap : Int}
    (stepped : configBegin env state id = some next)
    (running : next.tasks id = some (.config body (.enforcing cap))) :
    state.configUpdate = none ∧
      next.configGeneration = state.configGeneration + 1 := by
  simp only [configBegin] at stepped
  split at stepped
  · next free =>
    split at stepped
    · cases stepped
      simp [AppState.finish, AppState.setTask] at running
    · cases stepped
      exact ⟨free, rfl⟩
  · contradiction

/-- The answers 409 and 500 increment the generation once more. -/
theorem configResume_refuses (owned : Owned state) {id : Nat}
    {body : ConfigBody} {cap : Int} {result : JobResult Document}
    (running : state.tasks id = some (.config body (.enforcing cap)))
    (finished : state.jobs id = some (.finished result))
    (refused : result ≠ .applied)
    (stepped : configResume env state id = some next) :
    next.configGeneration = state.configGeneration + 1 ∧
      next.configUpdate = none := by
  have locked := owned id (replacing_of_task running)
  simp only [configResume, running, finished] at stepped
  cases stepped
  exact ⟨rfl, if_pos locked⟩

end Beside

/-! ## Request ids -/

/-- Only the ids below a bound are in use. -/
def AppState.UsesBelow (state : AppState Document) (bound : Nat) : Prop :=
  ∀ id, bound ≤ id → state.tasks id = none ∧ state.jobs id = none

theorem usesBelow_of_step {env : Environment Document}
    {state next : AppState Document} {label : Label Document} {bound : Nat}
    (below : state.UsesBelow bound)
    (stepped : step env state label = some next) :
    ∃ raised, next.UsesBelow raised := by
  by_cases boots : ∃ deferred, label = .boot deferred
  · obtain ⟨deferred, rfl⟩ := boots
    cases stepped
    exact ⟨0, fun _ _ => ⟨rfl, rfl⟩⟩
  refine ⟨max bound (label.owner.elim 0 Nat.succ), fun id above => ?_⟩
  have apart : label.owner ≠ some id := by
    intro same
    rw [same] at above
    exact absurd (le_of_max_le_right above) (Nat.not_succ_le_self id)
  have beside := beside_of_step stepped
    fun deferred same => boots ⟨deferred, same⟩
  rw [beside.tasks id apart, beside.jobs id apart]
  exact below id (le_of_max_le_left above)

/-! ## A push which nothing interrupts -/

/-- A push which goes through. -/
def acceptedPush (id : Nat) (body : ConfigBody) : List (Label Document) :=
  [.configRequest id body, .configBegin id, .runJob id .ok, .configResume id,
    .configSources id, .configReconcile id, .runJob id .ok, .configResume id,
    .configInstall id, .configPublish id]

/-- A push is possible, and would not be refused for its cap. -/
structure AppState.Open (state : AppState Document) (id : Nat) (cap : Int) :
    Prop where
  unused : state.tasks id = none
  idle : state.jobs id = none
  free : state.configUpdate = none
  fits : state.cache.pinnedBytes ≤ cap

section PushRun

variable {env : Environment Document} {state : AppState Document} {id : Nat}
  {body : ConfigBody}

@[simp] theorem tasks_toPhase {phase : ConfigPhase Document} :
    (state.toPhase id body phase).tasks id = some (.config body phase) :=
  Function.update_self _ _ _

@[simp] theorem jobs_spawn {work : Work Document} :
    (state.spawn id work).jobs id = some (.pending work) :=
  Function.update_self _ _ _

@[simp] theorem jobs_setJob {job : Option (Job Document)} :
    (state.setJob id job).jobs id = job :=
  Function.update_self _ _ _

theorem pinnedBytes_evictTo (cache : TileCache) (cap : Int) :
    (cache.evictTo cap).pinnedBytes = cache.pinnedBytes := by
  unfold TileCache.evictTo
  split <;> rfl

/-- The cap is enforced, and the push may write. -/
theorem acceptedPush_enforces
    (opened : state.Open id (body.knobs state.live).capBytes)
    (accepted : body.rejection env (body.knobs state.live) = none) :
    ∃ writing, (configMachine env).exec state
        [.configRequest id body, .configBegin id, .runJob id .ok,
          .configResume id] = some writing ∧
      writing.tasks id = some (.config body .writingSources) ∧
      writing.jobs id = none ∧ writing.configUpdate = some id ∧
      writing.cache.pinnedBytes = state.cache.pinnedBytes ∧
      writing.configGeneration = state.configGeneration + 1 ∧
      writing.learnedStyles = state.learnedStyles := by
  let cap := (body.knobs state.live).capBytes
  let waiting := state.toPhase id body .waiting
  let enforcing := (({ waiting.increment with configUpdate := some id }.toPhase
    id body (.enforcing cap)).spawn id (.enforceCap cap))
  let evicted := { enforcing with cache := state.cache.evictTo cap }.setJob id
    (some (.finished .applied))
  let writing := (evicted.setJob id none).toPhase id body .writingSources
  have requested : configRequest state id body = some waiting := by
    simp [configRequest, opened.unused, opened.idle, waiting]
  have begun : configBegin env waiting id = some enforcing := by
    have accepts : body.rejection env (body.knobs waiting.live) = none :=
      accepted
    have free : waiting.configUpdate = none := opened.free
    have running : waiting.tasks id = some (.config body .waiting) :=
      tasks_toPhase
    simp only [configBegin, running, free, accepts]
    rfl
  have ran : runJob env enforcing id .ok = some evicted := by
    have fits : ¬ enforcing.cache.pinnedBytes > cap := not_lt.mpr opened.fits
    simp only [runJob, enforcing, jobs_spawn]
    simp only [enforcing] at fits
    simp only [perform, if_neg fits]
    rfl
  have resumed : configResume env evicted id = some writing := by
    have running : evicted.tasks id =
        some (.config body (.enforcing cap)) := tasks_toPhase
    simp only [configResume, running, evicted, jobs_setJob, writing]
  refine ⟨writing, Machine.exec_cons_eq_some.mpr ⟨waiting, requested,
    Machine.exec_cons_eq_some.mpr ⟨enforcing, begun,
    Machine.exec_cons_eq_some.mpr ⟨evicted, ran,
    Machine.exec_cons_eq_some.mpr ⟨writing, resumed, rfl⟩⟩⟩⟩,
    tasks_toPhase, jobs_setJob, rfl, pinnedBytes_evictTo _ _, rfl, rfl⟩

/-- The catalog is replaced, and no style is restored. -/
theorem acceptedPush_replaces
    (running : state.tasks id = some (.config body .writingSources))
    (locked : state.configUpdate = some id)
    (unkept : body.sources = [] ∨ state.learnedStyles = KeyedTable.empty) :
    ∃ final, (configMachine env).exec state
        [.configSources id, .configReconcile id, .runJob id .ok,
          .configResume id, .configInstall id, .configPublish id] =
        some final ∧
      final.tasks id = none ∧ final.jobs id = none ∧
      final.configUpdate = none ∧
      final.cache.pinnedBytes = state.cache.pinnedBytes ∧
      final.configGeneration = state.configGeneration + 1 ∧
      final.sources = catalogOf body.sources ∧
      final.styleState = KeyedTable.empty ∧
      final.learnedStyles = KeyedTable.empty := by
  let published := state.configGeneration + 1
  let catalog := (catalogOf body.sources).rows.filter ChartSource.isStyle
  let signatures := catalog.filterMap fun source =>
    (env.sourceSignature source).map fun signature => (source.id, signature)
  let reading := { state with sources := catalogOf body.sources }.toPhase id
    body (.readingSources published)
  let reconciling := (reading.toPhase id body
    (.reconciling published catalog)).spawn id (.reconcile signatures)
  let reconciled := { reconciling with
    learnedStyles := KeyedTable.empty }.setJob id
      (some (.finished (.retained [])))
  let installing := (reconciled.setJob id none).toPhase id body
    (.installing [])
  let publishing := { installing with
    styleState := KeyedTable.empty }.toPhase id body .publishing
  have written : configSources state id = some reading := by
    simp only [configSources, running]
    rfl
  have asked : configReconcile env reading id = some reconciling := by
    simp only [configReconcile, reading, tasks_toPhase]
    rfl
  have nothing : reconcileLearnedStyles env reconciling signatures = [] := by
    rcases unkept with empty | empty
    · have none : signatures = [] := by
        simp [signatures, catalog, catalogOf, empty, KeyedTable.empty]
      rw [none]
      rfl
    · have lost : reconciling.learnedStyles = KeyedTable.empty := empty
      unfold reconcileLearnedStyles
      rw [lost]
      exact List.filterMap_eq_nil_iff.mpr fun _ _ => rfl
  have ran : runJob env reconciling id .ok = some reconciled := by
    have pending : reconciling.jobs id =
        some (.pending (.reconcile signatures)) := jobs_spawn
    simp only [runJob, pending, perform, nothing]
    rfl
  have resumed : configResume env reconciled id = some installing := by
    have waiting : reconciled.tasks id =
        some (.config body (.reconciling published catalog)) := tasks_toPhase
    simp only [configResume, waiting, reconciled, jobs_setJob]
    rfl
  have installed : configInstall installing id = some publishing := by
    simp only [configInstall, installing, tasks_toPhase]
    rfl
  have finished : ∃ final, configPublish publishing id = some final ∧
      final.tasks id = none ∧ final.jobs id = none ∧
      final.configUpdate = none ∧
      final.cache.pinnedBytes = state.cache.pinnedBytes ∧
      final.configGeneration = state.configGeneration + 1 ∧
      final.sources = catalogOf body.sources ∧
      final.styleState = KeyedTable.empty ∧
      final.learnedStyles = KeyedTable.empty := by
    simp only [configPublish, publishing, tasks_toPhase]
    refine ⟨_, rfl, Function.update_self _ _ _, jobs_setJob, ?_, rfl, rfl,
      rfl, rfl, rfl⟩
    exact if_pos locked
  obtain ⟨final, publishes, facts⟩ := finished
  exact ⟨final, Machine.exec_cons_eq_some.mpr ⟨reading, written,
    Machine.exec_cons_eq_some.mpr ⟨reconciling, asked,
    Machine.exec_cons_eq_some.mpr ⟨reconciled, ran,
    Machine.exec_cons_eq_some.mpr ⟨installing, resumed,
    Machine.exec_cons_eq_some.mpr ⟨publishing, installed,
    Machine.exec_cons_eq_some.mpr ⟨final, publishes, rfl⟩⟩⟩⟩⟩⟩, facts⟩

/-- A push which goes through replaces the catalog and drops every style of
which no record is kept. -/
theorem acceptedPush_run
    (opened : state.Open id (body.knobs state.live).capBytes)
    (accepted : body.rejection env (body.knobs state.live) = none)
    (unkept : body.sources = [] ∨ state.learnedStyles = KeyedTable.empty) :
    ∃ final, (configMachine env).exec state (acceptedPush id body) =
        some final ∧
      final.Open id (body.knobs state.live).capBytes ∧
      final.configGeneration = state.configGeneration + 2 ∧
      final.sources = catalogOf body.sources ∧
      final.styleState = KeyedTable.empty ∧
      final.learnedStyles = KeyedTable.empty := by
  obtain ⟨writing, enforces, running, _, locked, pinned, generation, same⟩ :=
    acceptedPush_enforces opened accepted
  obtain ⟨final, replaces, unused, idle, free, still, published, rest⟩ :=
    acceptedPush_replaces running locked (unkept.imp_right same.trans)
  refine ⟨final, Machine.exec_append_eq_some.mpr ⟨writing, enforces,
    replaces⟩, ⟨unused, idle, free, ?_⟩, ?_, rest⟩
  · rw [still, pinned]
    exact opened.fits
  · omega

end PushRun

/-! ## A learn which nothing interrupts -/

section LearnRun

variable {env : Environment Document} {state : AppState Document} {id : Nat}
  {source : String} {generation : Nat} {phase : LearnPhase Document}

@[simp] theorem tasks_toLearnPhase :
    (state.toLearnPhase id source generation phase).tasks id =
      some (.learn source generation phase) :=
  Function.update_self _ _ _

/-- The learning steps up to the commit write nothing but their own task. -/
theorem learn_reaches_fetching {definition : ChartSource} {styleUrl : String}
    {hosts : List String} {now : Int}
    (unused : state.tasks id = none) (idle : state.jobs id = none)
    (even : state.configGeneration % 2 = 0)
    (stale : state.freshStyle env source state.configGeneration now = none)
    (found : state.sources.lookup source = some definition)
    (upstream : definition.upstream = .style styleUrl hosts)
    (allowed : env.styleUrlAllowed styleUrl hosts env.allowPrivateEgress =
      true) :
    ∃ fetching, (configMachine env).exec state
        [.learnRequest id source now, .learnResolve id, .learnExisting id] =
        some fetching ∧
      fetching.styleState = state.styleState ∧
      fetching.configGeneration = state.configGeneration ∧
      fetching.configUpdate = state.configUpdate ∧
      fetching.tasks id = some (.learn source state.configGeneration
        (.fetching definition
          (state.currentStyle source state.configGeneration))) := by
  let resolving := state.toLearnPhase id source state.configGeneration
    .resolving
  let reading := resolving.toLearnPhase id source state.configGeneration
    (.reading definition)
  have requested : learnRequest env state id source now = some resolving := by
    simp only [learnRequest, even, stale, unused, idle, Option.isNone_none,
      and_self, if_true, resolving]
  have resolved : learnResolve env resolving id = some reading := by
    have sameSources : resolving.sources = state.sources := rfl
    simp only [learnResolve, resolving, tasks_toLearnPhase]
    simp only [resolving] at sameSources
    simp only [sameSources, found, upstream, allowed, if_true, reading,
      resolving]
  have read : learnExisting reading id = some
      (reading.toLearnPhase id source state.configGeneration
        (.fetching definition
          (state.currentStyle source state.configGeneration))) := by
    simp only [learnExisting, reading, tasks_toLearnPhase]
    rfl
  refine ⟨_, Machine.exec_cons_eq_some.mpr ⟨resolving, requested,
    Machine.exec_cons_eq_some.mpr ⟨reading, resolved,
      Machine.exec_cons_eq_some.mpr ⟨_, read, rfl⟩⟩⟩, rfl, rfl, rfl, ?_⟩
  exact tasks_toLearnPhase

theorem lookup_installStyle {style : StyleState Document}
    {definition : ChartSource} {renewed : Bool} :
    (installStyle env state id style generation definition
      renewed).styleState.lookup style.source = some style := by
  refine (KeyedTable.lookup_insertOrReplace _ _ _).trans ?_
  rw [if_pos rfl]

theorem learn_commits {definition : ChartSource} {now : Int}
    {current : Option (StyleState Document)} {document : Document}
    {tilejson : String → Option Document} {validator : Option String}
    {content : StyleContent Document}
    (running : state.tasks id = some (.learn source state.configGeneration
      (.fetching definition current)))
    (free : state.configUpdate = none)
    (accepted : env.learnContent (allowedHosts definition) document tilejson =
      some content)
    (room : ¬ ((state.styleState.lookup source).isNone ∧
      maxLearnedStyleEntries ≤ state.styleState.rows.length)) :
    ∃ final, (configMachine env).exec state
        [.learnAnswer id (.document document tilejson validator),
          .learnCommit id now] = some final ∧
      final.configGeneration = state.configGeneration ∧
      final.styleState.lookup source = some
        { source := source
          content := content
          configGeneration := state.configGeneration
          generation :=
            current.elim state.configGeneration StyleState.generation
          fetchedAt := now
          upstreamValidator := validator } := by
  let committing := state.toLearnPhase id source state.configGeneration
    (.committing definition current content validator)
  have answers : step env state
      (.learnAnswer id (.document document tilejson validator)) =
      some committing := by
    simp only [step, learnAnswer, running, accepted, committing]
  have commits : step env committing (.learnCommit id now) =
      some (installStyle env committing id
        { source := source
          content := content
          configGeneration := state.configGeneration
          generation :=
            current.elim state.configGeneration StyleState.generation
          fetchedAt := now
          upstreamValidator := validator }
        state.configGeneration definition current.isNone) := by
    have sameLock : committing.configUpdate = none := free
    have sameGeneration :
        committing.configGeneration = state.configGeneration := rfl
    simp only [step, learnCommit, sameLock, sameGeneration, if_true,
      committing, tasks_toLearnPhase]
    exact if_neg room
  exact ⟨_, Machine.exec_cons_eq_some.mpr ⟨committing, answers,
    Machine.exec_cons_eq_some.mpr ⟨_, commits, rfl⟩⟩, rfl, lookup_installStyle⟩

end LearnRun

/-! ## A catalog which starts afresh -/

/-- The namespace of the entry which is valid for the current generation. -/
def AppState.namespaceOf (state : AppState Document) (source : String) :
    Option Nat :=
  (state.currentStyle source state.configGeneration).map StyleState.generation

/-- A push accepts the style source, and the learner the document. -/
structure Environment.Learns (env : Environment Document)
    (definition : ChartSource) (document : Document)
    (tilejson : String → Option Document) : Prop where
  valid : env.sourceValid definition env.allowPrivateEgress = true
  upstream : ∃ styleUrl hosts, definition.upstream = .style styleUrl hosts ∧
    env.styleUrlAllowed styleUrl hosts env.allowPrivateEgress = true ∧
    (env.learnContent hosts document tilejson).isSome = true

/-- A body which names every budget. -/
def bodyOf (sources : List ChartSource) (cap : Int) : ConfigBody where
  sources := sources
  publicBase := none
  capBytes := some cap
  regionsBudgetBytes := some 0
  positionWarmBudgetBytes := some 0
  scrollTtlSecs := some 0
  geocodingEnabled := none

/-- An empty catalog, a catalog of one style source, and its learn. -/
def renewal (id : Nat) (cap : Int) (definition : ChartSource)
    (document : Document) (tilejson : String → Option Document) :
    List (Label Document) :=
  acceptedPush id (bodyOf [] cap) ++
    (acceptedPush id (bodyOf [definition] cap) ++
      ([.learnRequest id definition.id 0, .learnResolve id,
        .learnExisting id] ++
        [.learnAnswer id (.document document tilejson none),
          .learnCommit id 0]))

section Renewal

variable {env : Environment Document} {state : AppState Document} {id : Nat}
  {cap : Int} {definition : ChartSource} {document : Document}
  {tilejson : String → Option Document}

theorem bodyOf_accepted (positive : 0 < cap) {sources : List ChartSource}
    (few : sources.length ≤ 1)
    (valid : ∀ source ∈ sources,
      env.sourceValid source env.allowPrivateEgress = true) :
    (bodyOf sources cap).rejection env ⟨cap, 0, 0, 0⟩ = none := by
  have small : ¬ (bodyOf sources cap).sources.length > maxConfigSources :=
    not_lt.mpr (few.trans (by decide))
  have good : ¬ anyInvalidSource
      (fun source => env.sourceValid source env.allowPrivateEgress)
      (bodyOf sources cap).sources [] = true := by
    change ¬ anyInvalidSource _ sources [] = true
    cases sources with
    | nil => simp [anyInvalidSource]
    | cons source rest =>
        obtain rfl : rest = [] := by simpa using few
        simp [anyInvalidSource, valid source (by simp)]
  have styles : ¬ ((bodyOf sources cap).sources.filter
      ChartSource.isStyle).length > maxLearnedStyleEntries :=
    not_lt.mpr ((List.length_filter_le _ _).trans (few.trans (by decide)))
  have base : ¬ (bodyOf sources cap).publicBase.any invalidPublicBase =
      true := by
    simp [bodyOf]
  unfold ConfigBody.rejection
  rw [if_neg small, if_neg good, if_neg styles, if_neg base,
    if_neg (by dsimp only; omega), if_neg (by simp [maxScrollTtlSecs])]

/-- The namespace of the style is the generation behind the two pushes. -/
theorem renewal_run (learns : env.Learns definition document tilejson)
    (opened : state.Open id cap) (positive : 0 < cap)
    (even : state.configGeneration % 2 = 0) :
    ∃ final, (configMachine env).exec state
        (renewal id cap definition document tilejson) = some final ∧
      final.namespaceOf definition.id =
        some (state.configGeneration + 4) := by
  obtain ⟨styleUrl, hosts, upstream, allowed, accepted⟩ := learns.upstream
  obtain ⟨content, accepted⟩ := Option.isSome_iff_exists.mp accepted
  obtain ⟨purged, purges, purgedOpen, purgedGeneration, _, _, unkept⟩ :=
    @acceptedPush_run Document env state id (bodyOf [] cap) opened
      (bodyOf_accepted positive (by simp) (by simp)) (.inl rfl)
  obtain ⟨published, publishes, ready, generation, catalog, styles, _⟩ :=
    @acceptedPush_run Document env purged id (bodyOf [definition] cap)
      purgedOpen (bodyOf_accepted positive (by simp)
        (by simpa using learns.valid)) (.inr unkept)
  have found : published.sources.lookup definition.id = some definition := by
    rw [catalog]
    refine (KeyedTable.lookup_insertOrReplace _ _ _).trans (if_pos rfl)
  have stale : published.freshStyle env definition.id
      published.configGeneration 0 = none := by
    simp [AppState.freshStyle, AppState.currentStyle, styles,
      KeyedTable.lookup, KeyedTable.empty]
  have absent : published.currentStyle definition.id
      published.configGeneration = none := by
    simp [AppState.currentStyle, styles, KeyedTable.lookup, KeyedTable.empty]
  obtain ⟨fetching, fetches, sameStyles, sameGeneration, sameLock, running⟩ :=
    learn_reaches_fetching ready.unused ready.idle (by omega) stale found
      upstream allowed
  rw [← sameGeneration, sameGeneration, absent] at running
  have room : ¬ ((fetching.styleState.lookup definition.id).isNone ∧
      maxLearnedStyleEntries ≤ fetching.styleState.rows.length) := by
    rw [sameStyles, styles]
    simp [KeyedTable.empty, maxLearnedStyleEntries]
  rw [← sameGeneration] at running
  obtain ⟨final, commits, kept, stored⟩ :=
    @learn_commits Document env fetching id definition.id definition 0 none
      document tilejson none content running (sameLock.trans ready.free)
      (by simpa only [allowedHosts, upstream] using accepted) room
  refine ⟨final, Machine.exec_append_eq_some.mpr ⟨purged, purges,
    Machine.exec_append_eq_some.mpr ⟨published, publishes,
      Machine.exec_append_eq_some.mpr ⟨fetching, fetches, commits⟩⟩⟩, ?_⟩
  simp only [AppState.namespaceOf, AppState.currentStyle, stored, kept,
    Option.filter_some, decide_true, if_true, Option.map_some]
  simp only [Option.elim_none, sameGeneration, generation, purgedGeneration]

/-- A push which is lost when it has begun. -/
def lostBegin (id : Nat) (cap : Int) : List (Label Document) :=
  [.configRequest id (bodyOf [] cap), .configBegin id, .drop id]

theorem lostBegin_run (opened : state.Open id cap) (positive : 0 < cap) :
    ∃ final, (configMachine env).exec state (lostBegin id cap) =
        some final ∧
      final.configGeneration = state.configGeneration + 1 ∧
      final.configUpdate = none ∧
      final.cache.pinnedBytes = state.cache.pinnedBytes ∧
      ∀ other, other ≠ id → final.tasks other = state.tasks other ∧
        final.jobs other = state.jobs other := by
  let waiting := state.toPhase id (bodyOf [] cap) .waiting
  let enforcing := (({ waiting.increment with configUpdate := some id }.toPhase
    id (bodyOf [] cap) (.enforcing cap)).spawn id (.enforceCap cap))
  have requested : configRequest state id (bodyOf [] cap) = some waiting := by
    simp [configRequest, opened.unused, opened.idle, waiting]
  have begun : configBegin env waiting id = some enforcing := by
    have accepted : (bodyOf [] cap).rejection env
        ((bodyOf [] cap).knobs waiting.live) = none :=
      bodyOf_accepted positive (by simp) (by simp)
    have free : waiting.configUpdate = none := opened.free
    have running : waiting.tasks id =
        some (.config (bodyOf [] cap) .waiting) := tasks_toPhase
    simp only [configBegin, running, free, accepted]
    rfl
  have dropped : dropTask enforcing id = some (enforcing.finish id) := by
    have running : enforcing.tasks id =
        some (.config (bodyOf [] cap) (.enforcing cap)) := tasks_toPhase
    simp [dropTask, running]
  refine ⟨enforcing.finish id, Machine.exec_cons_eq_some.mpr ⟨waiting,
    requested, Machine.exec_cons_eq_some.mpr ⟨enforcing, begun,
    Machine.exec_cons_eq_some.mpr ⟨_, dropped, rfl⟩⟩⟩, rfl, if_pos rfl, rfl,
    fun other apart => ⟨?_, Function.update_of_ne apart _ _⟩⟩
  change Function.update (Function.update (Function.update state.tasks id _) id
    _) id none other = _
  simp only [Function.update_of_ne apart]

end Renewal

/-! ## Samples -/

def libertySource : ChartSource where
  id := "liberty"
  title := "Liberty"
  upstream := .style "https://tiles.example/liberty" ["tiles.example"]
  tileSize := 512
  minzoom := 0
  maxzoom := 14
  vectorMaxzoom := none
  bounds := none
  coverage := none
  maxAgeSeconds := none
  attribution := ""

/-- A learn which goes through. -/
def acceptedLearn (id : Nat) (source : String) (now : Int)
    (document : Document) : List (Label Document) :=
  [.learnRequest id source now, .learnResolve id, .learnExisting id,
    .learnAnswer id (.document document (fun _ => none) none),
    .learnCommit id now, .learnPersist id, .runJob id .ok, .learnFinish id]

end ChartLocker.Config
