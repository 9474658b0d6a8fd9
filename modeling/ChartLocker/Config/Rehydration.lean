import ChartLocker.Config.Parity

/-!
# From a learn to the next push

What a push makes of the record which a learn has stored.  A step belongs to
one task, and leaves the other tasks, their jobs and their lock alone; the
catalog is written by one step of a push and the stored records by blocking
jobs only.
-/

namespace ChartLocker.Config

open Library Cache Catalog

variable {Document : Type}

/-! ## What a step leaves alone -/

/-- The task which moves. -/
def Label.owner : Label Document → Option Nat
  | .configRequest id _ | .configBegin id | .configSources id
  | .configReconcile id | .configResume id | .configInstall id
  | .configPublish id | .runJob id _ | .learnRequest id _ _
  | .learnResolve id | .learnExisting id | .learnAnswer id _
  | .learnCommit id _ | .learnPersist id | .learnFinish id
  | .lockHolder id | .unlockHolder id | .drop id => some id
  | .scrollTtl _ | .cacheCall _ | .boot _ => none

/-- The effect of a step outside its own task. -/
structure Beside (state next : AppState Document) (label : Label Document) :
    Prop where
  tasks : ∀ other, label.owner ≠ some other →
    next.tasks other = state.tasks other
  jobs : ∀ other, label.owner ≠ some other →
    next.jobs other = state.jobs other
  lock : ∀ other, label.owner ≠ some other →
    state.configUpdate = some other → next.configUpdate = some other
  sources : (∀ id, label ≠ .configSources id) → next.sources = state.sources
  learnedStyles : (∀ id outcome, label ≠ .runJob id outcome) →
    next.learnedStyles = state.learnedStyles

section Frame

variable {env : Environment Document} {state next : AppState Document}
  {label : Label Document}

theorem finish_lock {id other : Nat} (apart : other ≠ id)
    (held : state.configUpdate = some other) :
    (state.finish id).configUpdate = some other := by
  simp [AppState.finish, held, apart]

theorem beside_of_step (stepped : step env state label = some next)
    (running : ∀ deferred, label ≠ .boot deferred) :
    Beside state next label := by
  cases label with
  | boot deferred => exact absurd rfl (running deferred)
  | scrollTtl ttl =>
      cases stepped
      simp only [setScrollTtl]
      split <;> exact ⟨fun _ _ => rfl, fun _ _ => rfl, fun _ _ held => held,
        fun _ => rfl, fun _ => rfl⟩
  | cacheCall op =>
      cases stepped
      exact ⟨fun _ _ => rfl, fun _ _ => rfl, fun _ _ held => held,
        fun _ => rfl, fun _ => rfl⟩
  | runJob id outcome =>
      simp only [step, runJob] at stepped
      split at stepped
      · next work _ =>
        cases stepped
        rw [perform_eq]
        refine ⟨fun _ _ => rfl, fun other different => ?_,
          fun _ _ held => held, fun _ => rfl,
          fun absent => absurd rfl (absent id outcome)⟩
        have apart : other ≠ id := fun same =>
          different (congrArg some same.symm)
        exact Function.update_of_ne apart _ _
      · contradiction
  | _ =>
      simp only [step, configRequest, configBegin, configSources,
        configReconcile, configResume, configInstall, configPublish,
        learnRequest, learnResolve, learnExisting, learnAnswer, learnCommit,
        learnPersist, learnFinish, lockHolder, unlockHolder,
        dropTask] at stepped
      repeat' split at stepped
      all_goals first
        | contradiction
        | cases stepped
          refine ⟨fun other different => ?_, fun other different => ?_,
            fun other different held => ?_, fun absent => ?_, fun _ => rfl⟩
          all_goals first
            | rfl
            | exact held
            | exact absurd rfl (absent _)
            | exact Function.update_of_ne
                (fun same => different (congrArg some same.symm)) _ _
            | exact finish_lock
                (fun same => different (congrArg some same.symm)) held
            | simp_all

end Frame

/-! ## Who writes the record of a source -/

/-- The task has installed an entry of the source and not yet stored its
record, or it rehydrates the records. -/
def Task.saves (wanted : String) : Task Document → Bool
  | .learn source _ (.persisting _) => source == wanted
  | .learn source _ .storing => source == wanted
  | .config _ (.readingSources _) => true
  | .config _ (.reconciling _ _) => true
  | .config _ (.deletingInvalid _) => true
  | .config _ (.installing _) => true
  | _ => false

/-- The task waits for a job which writes the record of the source. -/
def Task.awaits (wanted : String) : Task Document → Bool
  | .learn source _ .storing => source == wanted
  | .config _ (.reconciling _ _) => true
  | .config _ (.deletingInvalid _) => true
  | _ => false

def AppState.saves (state : AppState Document) (wanted : String) (id : Nat) :
    Bool :=
  (state.tasks id).any (Task.saves wanted)

def AppState.awaits (state : AppState Document) (wanted : String)
    (id : Nat) : Bool :=
  (state.tasks id).any (Task.awaits wanted)

section Saves

variable {env : Environment Document} {state next : AppState Document}
  {label : Label Document} {wanted : String} {id : Nat}

theorem saves_of_task {task : Task Document}
    (running : state.tasks id = some task) :
    state.saves wanted id = task.saves wanted := by
  simp [AppState.saves, running]

/-- How a task comes to save the record. -/
theorem saves_own (stepped : step env state label = some next)
    (owner : label.owner = some id)
    (saves : next.saves wanted id = true) :
    (state.saves wanted id = true ∧
      next.configUpdate = state.configUpdate) ∨
    (label = .configSources id ∧ (∃ body,
      state.tasks id = some (.config body .writingSources)) ∧
      next.configUpdate = state.configUpdate) ∨
    ∃ now, label = .learnCommit id now ∧ next.configUpdate = some id ∧
      ∃ generation style, next.tasks id =
        some (.learn wanted generation (.persisting style)) := by
  cases label with
  | boot | scrollTtl | cacheCall => cases owner
  | runJob other outcome =>
      cases owner
      simp only [step, runJob] at stepped
      split at stepped
      · cases stepped
        rw [perform_eq] at saves ⊢
        exact .inl ⟨saves, rfl⟩
      · contradiction
  | _ =>
      cases owner
      simp only [step, configRequest, configBegin, configSources,
        configReconcile, configResume, configInstall, configPublish,
        learnRequest, learnResolve, learnExisting, learnAnswer, learnCommit,
        learnPersist, learnFinish, lockHolder, unlockHolder,
        dropTask] at stepped
      repeat' split at stepped
      all_goals first
        | contradiction
        | cases stepped
          simp_all [AppState.saves, Task.saves, AppState.toPhase,
            AppState.toLearnPhase, AppState.setTask, AppState.setJob,
            AppState.finish, AppState.spawn, AppState.increment,
            installStyle]

/-- Whoever saves the record holds the lock. -/
def SavesLocked (wanted : String) (state : AppState Document) : Prop :=
  ∀ id, state.saves wanted id = true → state.configUpdate = some id

theorem SavesLocked.step (locked : SavesLocked wanted state)
    (owned : Owned state) (stepped : step env state label = some next) :
    SavesLocked wanted next := by
  intro id saves
  by_cases boots : ∃ deferred, label = .boot deferred
  · obtain ⟨deferred, rfl⟩ := boots
    cases stepped
    cases saves
  have beside := beside_of_step stepped fun deferred same =>
    boots ⟨deferred, same⟩
  by_cases owner : label.owner = some id
  · rcases saves_own stepped owner saves with
      ⟨before, lock⟩ | ⟨_, ⟨body, running⟩, lock⟩ | ⟨now, _, lock, _⟩
    · exact lock.trans (locked id before)
    · exact lock.trans (owned id (replacing_of_task running))
    · exact lock
  · apply beside.lock id owner
    apply locked id
    simpa only [AppState.saves, beside.tasks id owner] using saves

theorem savesLocked_of_reachable (reached : (configMachine env).Reachable state)
    (wanted : String) : SavesLocked wanted state := by
  refine (reached.invariant (motive := fun state => Owned state ∧
    SavesLocked wanted state) ?_ ?_).2
  · rintro first rfl
    exact ⟨owned_firstBoot env, fun id saves => by cases saves⟩
  · intro before step after holds stepped
    exact ⟨holds.1.moves (step_moves stepped), holds.2.step holds.1 stepped⟩

/-- Another task saves nothing while one holds the lock. -/
theorem SavesLocked.idle_others (locked : SavesLocked wanted state)
    {holder : Nat} (held : state.configUpdate = some holder)
    (apart : id ≠ holder) : state.saves wanted id = false := by
  by_contra saves
  have own := locked id (by simpa using saves)
  exact apart (Option.some.inj (own.symm.trans held))

end Saves

/-! ## The record of a source -/

section Record

variable (env : Environment Document) (wanted : String)

/-- The record which a learn stores. -/
def recordOf (signature : String) (style : StyleState Document) :
    StoredLearnedStyle Document where
  source := wanted
  sourceSignature := signature
  state := .fromLive style
  fetchedAt := style.fetchedAt

/-- The entry which a push makes of a record under a definition. -/
def rehydrated (definition : ChartSource)
    (stored : Option (StoredLearnedStyle Document)) (published : Nat) :
    Option (StyleState Document) :=
  (stored.filter fun row =>
    decide (some row.sourceSignature = env.sourceSignature definition ∧
      env.encodedLength row.state ≤ maxPersistedStyleBytes) &&
    env.validPersisted row.state definition env.allowPrivateEgress).map
    fun row => row.state.intoLive wanted published

/-- The signatures which a push asks for. -/
def signaturesOf (catalog : List ChartSource) : List (String × String) :=
  catalog.filterMap fun source =>
    (env.sourceSignature source).map fun signature => (source.id, signature)

variable {env} {wanted} {state : AppState Document}
  {catalog : List ChartSource} {definition : ChartSource}

/-- The retained row of a source of the catalog. -/
theorem mem_reconcile_iff
    (unique : ∀ source ∈ catalog, source.id = wanted → source = definition)
    (member : definition ∈ catalog) (named : definition.id = wanted)
    (row : StoredLearnedStyle Document) :
    (row ∈ reconcileLearnedStyles env state (signaturesOf env catalog) ∧
        row.source = wanted) ↔
      state.learnedStyles.lookup wanted = some row ∧
        some row.sourceSignature = env.sourceSignature definition ∧
        env.encodedLength row.state ≤ maxPersistedStyleBytes := by
  constructor
  · rintro ⟨kept, source⟩
    obtain ⟨entry, listed, found⟩ := List.mem_filterMap.mp kept
    obtain ⟨stored, conditions⟩ := Option.filter_eq_some_iff.mp found
    simp only [Bool.and_eq_true, decide_eq_true_eq] at conditions
    have key : row.source = entry.1 := KeyedTable.lookup_key _ stored
    obtain ⟨other, known, signed⟩ := List.mem_filterMap.mp listed
    obtain ⟨signature, given, rfl⟩ := Option.map_eq_some_iff.mp signed
    obtain rfl := unique other known (key.symm.trans source)
    refine ⟨named ▸ stored, ?_, conditions.2⟩
    rw [conditions.1, given]
  · rintro ⟨stored, signed, fits⟩
    have source : row.source = wanted := KeyedTable.lookup_key _ stored
    refine ⟨List.mem_filterMap.mpr ⟨(wanted, row.sourceSignature), ?_, ?_⟩,
      source⟩
    · refine List.mem_filterMap.mpr ⟨definition, member, ?_⟩
      simp [← signed, named]
    · rw [Option.filter_eq_some_iff]
      exact ⟨stored, by simp [fits]⟩

end Record

/-! ## Runs which leave the record alone -/

/-- The job writes the record of the source. -/
def Work.writesRecord (wanted : String) : Work Document → Prop
  | .store row => row.source = wanted
  | .reconcile _ => True
  | .deleteInvalid _ => True
  | .enforceCap _ => False

/-- Between a learn and the next push: no task which saves the record is lost
and no statement of one fails, no job of a lost request writes the record, no
other entry of the source is installed, and no push has got to the end. -/
def Undisturbed (env : Environment Document) (wanted : String)
    (state : AppState Document) : Label Document → Prop
  | .drop id => state.saves wanted id = false
  | .boot _ => ∀ id, state.saves wanted id = false
  | .runJob id outcome => ∀ work, state.jobs id = some (.pending work) →
      work.writesRecord wanted →
        outcome = .ok ∧ state.configUpdate = some id ∧
          state.awaits wanted id = true
  | .learnCommit id now => ∀ next, learnCommit env state id now = some next →
      next.saves wanted id = false
  | .configInstall _ => False
  | _ => True

section Stages

variable (env : Environment Document) (wanted : String)
  (definition : ChartSource) (stored : Option (StoredLearnedStyle Document))

/-- The rows of a reconciliation contain the record if it still belongs to
the catalog. -/
def Retained (body : ConfigBody)
    (rows : List (StoredLearnedStyle Document)) : Prop :=
  (catalogOf body.sources).lookup wanted = some definition →
    ∀ row, (row ∈ rows ∧ row.source = wanted) ↔
      stored = some row ∧
        some row.sourceSignature = env.sourceSignature definition ∧
        env.encodedLength row.state ≤ maxPersistedStyleBytes

def Restored (body : ConfigBody) (restored : List (StyleState Document)) :
    Prop :=
  (catalogOf body.sources).lookup wanted = some definition →
    ∃ published, ∀ entry, (entry ∈ restored ∧ entry.source = wanted) ↔
      rehydrated env wanted definition stored published = some entry

/-- What a push which rehydrates has made of the record. -/
def ConfigPhase.Progress (state : AppState Document) (push : Nat)
    (body : ConfigBody) : ConfigPhase Document → Prop
  | .readingSources _ => state.learnedStyles.lookup wanted = stored
  | .reconciling _ catalog =>
      catalog = state.sources.rows.filter ChartSource.isStyle ∧
        ((state.jobs push = some (.pending
            (.reconcile (signaturesOf env catalog))) ∧
          state.learnedStyles.lookup wanted = stored) ∨
        ∃ rows, state.jobs push = some (.finished (.retained rows)) ∧
          Retained env wanted definition stored body rows)
  | .deletingInvalid restored =>
      Restored env wanted definition stored body restored
  | .installing restored => Restored env wanted definition stored body restored
  | _ => False

/-- The way of a record from the learn which installed its entry to the push
which rehydrates it. -/
inductive Stage (signature : String) (style : StyleState Document)
    (learn : Nat) (state : AppState Document) : Prop where
  | persisting (generation : Nat)
      (task : state.tasks learn =
        some (.learn wanted generation (.persisting style)))
      (lock : state.configUpdate = some learn)
      (found : state.sources.lookup wanted = some definition)
      (outcome : stored =
        if env.encodedLength (.fromLive style) ≤ maxPersistedStyleBytes then
          some (recordOf wanted signature style)
        else
          state.learnedStyles.lookup wanted)
  | storing (generation : Nat)
      (task : state.tasks learn = some (.learn wanted generation .storing))
      (lock : state.configUpdate = some learn)
      (job : (∃ row, state.jobs learn = some (.pending (.store row)) ∧
          row.source = wanted ∧ stored = some row) ∨
        (∃ result, state.jobs learn = some (.finished result)) ∧
          state.learnedStyles.lookup wanted = stored)
  | kept (idle : ∀ id, state.saves wanted id = false)
      (record : state.learnedStyles.lookup wanted = stored)
  | pushing (push : Nat) (body : ConfigBody) (phase : ConfigPhase Document)
      (task : state.tasks push = some (.config body phase))
      (lock : state.configUpdate = some push)
      (sources : state.sources = catalogOf body.sources)
      (progress : phase.Progress env wanted definition stored state push body)

end Stages

section Step

variable {env : Environment Document} {wanted : String}
  {definition : ChartSource} {stored : Option (StoredLearnedStyle Document)}
  {signature : String} {style : StyleState Document} {learn : Nat}
  {state next : AppState Document} {label : Label Document}

theorem saves_of_awaits {id : Nat} (awaits : state.awaits wanted id = true) :
    state.saves wanted id = true := by
  simp only [AppState.awaits, AppState.saves, Option.any_eq_true] at awaits ⊢
  obtain ⟨task, running, awaits⟩ := awaits
  refine ⟨task, running, ?_⟩
  unfold Task.awaits at awaits
  split at awaits
  · exact awaits
  · rfl
  · rfl
  · contradiction

theorem perform_lookup {work : Work Document} {outcome : Outcome}
    (other : ¬ work.writesRecord wanted) :
    (perform env state work outcome).1.learnedStyles.lookup wanted =
      state.learnedStyles.lookup wanted := by
  cases work with
  | enforceCap cap =>
      simp only [perform]
      split
      · rfl
      · split <;> rfl
  | reconcile => exact absurd trivial other
  | deleteInvalid => exact absurd trivial other
  | store row =>
      cases outcome with
      | failed => rfl
      | ok =>
          have apart : wanted ≠ row.source := fun same => other same.symm
          simp only [perform, KeyedTable.lookup_insertOrReplace, apart,
            if_false]

/-- The record stays as it is, or the job of the lock's holder writes it. -/
theorem record_of_step (undisturbed : Undisturbed env wanted state label)
    (stepped : step env state label = some next)
    (running : ∀ deferred, label ≠ .boot deferred) :
    next.learnedStyles.lookup wanted = state.learnedStyles.lookup wanted ∨
      ∃ id, label = .runJob id .ok ∧ state.configUpdate = some id ∧
        state.awaits wanted id = true := by
  by_cases job : ∃ id outcome, label = .runJob id outcome
  · obtain ⟨id, outcome, rfl⟩ := job
    have changed := stepped
    simp only [step, runJob] at changed
    split at changed
    · next work pending =>
      by_cases writes : work.writesRecord wanted
      · obtain ⟨rfl, lock, awaits⟩ := undisturbed work pending writes
        exact .inr ⟨id, rfl, lock, awaits⟩
      · cases changed
        exact .inl (perform_lookup writes)
    · contradiction
  · have beside := beside_of_step stepped running
    left
    rw [beside.learnedStyles fun id outcome same => job ⟨id, outcome, same⟩]

/-- Nobody else publishes a catalog while a task holds the lock. -/
theorem sources_of_step (owned : Owned state) {holder : Nat}
    (lock : state.configUpdate = some holder)
    (stepped : step env state label = some next)
    (running : ∀ deferred, label ≠ .boot deferred)
    (apart : label.owner ≠ some holder) : next.sources = state.sources := by
  refine (beside_of_step stepped running).sources ?_
  rintro id rfl
  simp only [step, configSources] at stepped
  split at stepped
  · next task =>
    have own := owned id (replacing_of_task task)
    exact apart (own.symm.trans lock)
  · contradiction

theorem idle_of_finish {finished : AppState Document}
    (locked : SavesLocked wanted state)
    (lock : state.configUpdate = some learn)
    (tasks : finished.tasks = Function.update state.tasks learn none)
    (id : Nat) : finished.saves wanted id = false := by
  by_cases same : id = learn
  · simp [AppState.saves, tasks, same]
  · have idle := locked.idle_others lock same
    simpa [AppState.saves, tasks, same] using idle

/-- The steps of the task which is about to store the record. -/
theorem persisting_step {generation : Nat}
    (signed : env.sourceSignature definition = some signature)
    (locked : SavesLocked wanted state)
    (task : state.tasks learn =
      some (.learn wanted generation (.persisting style)))
    (lock : state.configUpdate = some learn)
    (found : state.sources.lookup wanted = some definition)
    (outcome : stored =
      if env.encodedLength (.fromLive style) ≤ maxPersistedStyleBytes then
        some (recordOf wanted signature style)
      else
        state.learnedStyles.lookup wanted)
    (undisturbed : Undisturbed env wanted state label)
    (stepped : step env state label = some next)
    (owner : label.owner = some learn) :
    Stage env wanted definition stored signature style learn next := by
  have saves : state.saves wanted learn = true := by
    simp [AppState.saves, task, Task.saves]
  cases label with
  | boot | scrollTtl | cacheCall => cases owner
  | drop id =>
      cases owner
      have idle : state.saves wanted learn = false := undisturbed
      exact absurd (saves.symm.trans idle) (by simp)
  | runJob id result =>
      cases owner
      have quiet := record_of_step undisturbed stepped (by simp)
      simp only [step, runJob] at stepped
      split at stepped
      · next work pending =>
        cases stepped
        rcases quiet with same | ⟨_, same, _, awaits⟩
        · rw [perform_eq] at same ⊢
          refine .persisting generation task lock found ?_
          rw [outcome]
          exact congrArg (ite _ _) same.symm
        · cases same
          simp [AppState.awaits, task, Task.awaits] at awaits
      · contradiction
  | learnPersist id =>
      cases owner
      simp only [step, learnPersist, task, found, Option.bind_some,
        signed] at stepped
      split at stepped
      · next fits =>
        cases stepped
        refine .storing generation (Function.update_self _ _ _) lock
          (.inl ⟨_, Function.update_self _ _ _, rfl, ?_⟩)
        rw [outcome, if_pos fits]
        rfl
      · next oversized =>
        cases stepped
        refine .kept (idle_of_finish locked lock rfl) ?_
        rw [outcome, if_neg oversized]
        rfl
  | _ =>
      cases owner
      simp [step, configRequest, configBegin, configSources, configReconcile,
        configResume, configInstall, configPublish, learnRequest,
        learnResolve, learnExisting, learnAnswer, learnCommit, learnFinish,
        lockHolder, unlockHolder, task] at stepped

/-- The steps of the task which waits for the store of the record. -/
theorem storing_step {generation : Nat}
    (locked : SavesLocked wanted state)
    (task : state.tasks learn = some (.learn wanted generation .storing))
    (lock : state.configUpdate = some learn)
    (job : (∃ row, state.jobs learn = some (.pending (.store row)) ∧
        row.source = wanted ∧ stored = some row) ∨
      (∃ result, state.jobs learn = some (.finished result)) ∧
        state.learnedStyles.lookup wanted = stored)
    (undisturbed : Undisturbed env wanted state label)
    (stepped : step env state label = some next)
    (owner : label.owner = some learn) :
    Stage env wanted definition stored signature style learn next := by
  cases label with
  | boot | scrollTtl | cacheCall => cases owner
  | drop id =>
      cases owner
      have saves : state.saves wanted learn = true := by
        simp [AppState.saves, task, Task.saves]
      have idle : state.saves wanted learn = false := undisturbed
      exact absurd (saves.symm.trans idle) (by simp)
  | runJob id result =>
      cases owner
      rcases job with ⟨row, pending, source, rfl⟩ | ⟨⟨_, finished⟩, _⟩
      · obtain ⟨rfl, _, _⟩ := undisturbed _ pending source
        simp only [step, runJob, pending] at stepped
        cases stepped
        refine .storing generation task lock (.inr ⟨⟨.applied,
          Function.update_self _ _ _⟩, ?_⟩)
        subst source
        exact (KeyedTable.lookup_insertOrReplace _ row row.source).trans
          (if_pos rfl)
      · simp [step, runJob, finished] at stepped
  | learnFinish id =>
      cases owner
      rcases job with ⟨row, pending, _, _⟩ | ⟨⟨_, finished⟩, record⟩
      · simp [step, learnFinish, task, pending] at stepped
      · simp only [step, learnFinish, task, finished] at stepped
        cases stepped
        exact .kept (idle_of_finish locked lock rfl) record
  | _ =>
      cases owner
      simp [step, configRequest, configBegin, configSources, configReconcile,
        configResume, configInstall, configPublish, learnRequest,
        learnResolve, learnExisting, learnAnswer, learnCommit, learnPersist,
        lockHolder, unlockHolder, task] at stepped

/-- The steps while nobody saves the record. -/
theorem kept_step (owned : Owned state)
    (idle : ∀ id, state.saves wanted id = false)
    (record : state.learnedStyles.lookup wanted = stored)
    (undisturbed : Undisturbed env wanted state label)
    (stepped : step env state label = some next)
    (running : ∀ deferred, label ≠ .boot deferred) :
    Stage env wanted definition stored signature style learn next := by
  have kept : next.learnedStyles.lookup wanted = stored := by
    rcases record_of_step undisturbed stepped running with
      same | ⟨id, _, _, awaits⟩
    · exact same.trans record
    · exact absurd ((saves_of_awaits awaits).symm.trans (idle id)) (by simp)
  by_cases still : ∀ id, next.saves wanted id = false
  · exact .kept still kept
  · -- Only a push which publishes its catalog starts to save the records.
    simp only [not_forall, Bool.not_eq_false] at still
    obtain ⟨id, saves⟩ := still
    have owner : label.owner = some id := by
      by_contra apart
      have same := (beside_of_step stepped running).tasks id apart
      have before : state.saves wanted id = true := by
        simpa only [AppState.saves, same] using saves
      exact absurd (before.symm.trans (idle id)) (by simp)
    rcases saves_own stepped owner saves with
      ⟨before, _⟩ | ⟨rfl, ⟨body, task⟩, lock⟩ | ⟨now, rfl, _, _⟩
    · exact absurd (before.symm.trans (idle id)) (by simp)
    · have held := owned id (replacing_of_task task)
      simp only [step, configSources, task] at stepped
      cases stepped
      exact .pushing id body _ (Function.update_self _ _ _) held rfl kept
    · exact absurd (saves.symm.trans (undisturbed next stepped)) (by simp)

/-- A style of the catalog is the only entry of its id which a push reads. -/
theorem catalog_unique {sources : KeyedTable ChartSource.id}
    (found : sources.lookup wanted = some definition) :
    ∀ source ∈ sources.rows.filter ChartSource.isStyle,
      source.id = wanted → source = definition := by
  intro source member named
  have stored := KeyedTable.lookup_eq_some.mp found
  exact sources.eq_of_key_eq (List.mem_of_mem_filter member) stored.1
    (named.trans stored.2.symm)

theorem mem_catalog {sources : KeyedTable ChartSource.id}
    (found : sources.lookup wanted = some definition)
    (isStyle : definition.isStyle = true) :
    definition ∈ sources.rows.filter ChartSource.isStyle :=
  List.mem_filter.mpr ⟨(KeyedTable.lookup_eq_some.mp found).1, isStyle⟩

theorem validRetained_wanted {sources : KeyedTable ChartSource.id}
    (found : sources.lookup wanted = some definition)
    (isStyle : definition.isStyle = true)
    {row : StoredLearnedStyle Document} (named : row.source = wanted) :
    validRetained env (sources.rows.filter ChartSource.isStyle) row =
      env.validPersisted row.state definition env.allowPrivateEgress := by
  have key := (KeyedTable.lookup_eq_some.mp found).2
  have chosen : (sources.rows.filter ChartSource.isStyle).find?
      (fun source => decide (source.id = row.source)) = some definition := by
    cases search : (sources.rows.filter ChartSource.isStyle).find?
        (fun source => decide (source.id = row.source)) with
    | none =>
        have absent := List.find?_eq_none.mp search definition
          (mem_catalog found isStyle)
        exact absurd (key.trans named.symm) (by simpa using absent)
    | some source =>
        have same : source.id = row.source := by
          simpa using List.find?_some search
        rw [catalog_unique found source (List.mem_of_find?_eq_some search)
          (same.trans named)]
  simp [validRetained, chosen]

/-- The entries which a push makes of retained rows. -/
theorem restored_of_retained {body : ConfigBody}
    {rows : List (StoredLearnedStyle Document)} {published : Nat}
    (isStyle : definition.isStyle = true)
    (retained : Retained env wanted definition stored body rows) :
    Restored env wanted definition stored body
      ((rows.filter (validRetained env
        ((catalogOf body.sources).rows.filter ChartSource.isStyle))).map
        fun row => row.state.intoLive row.source published) := by
  intro found
  refine ⟨published, fun entry => ?_⟩
  simp only [rehydrated, Option.map_eq_some_iff, Option.filter_eq_some_iff,
    Bool.and_eq_true, decide_eq_true_eq]
  constructor
  · rintro ⟨member, named⟩
    obtain ⟨row, kept, rfl⟩ := List.mem_map.mp member
    obtain ⟨listed, valid⟩ := List.mem_filter.mp kept
    have source : row.source = wanted := named
    rw [validRetained_wanted found isStyle source] at valid
    obtain ⟨same, conditions⟩ := (retained found row).mp ⟨listed, source⟩
    exact ⟨row, ⟨same, conditions, valid⟩, by rw [source]⟩
  · rintro ⟨row, ⟨same, conditions, valid⟩, rfl⟩
    obtain ⟨listed, source⟩ := (retained found row).mpr ⟨same, conditions⟩
    refine ⟨List.mem_map.mpr ⟨row, List.mem_filter.mpr ⟨listed, ?_⟩, ?_⟩,
      rfl⟩
    · rw [validRetained_wanted found isStyle source]
      exact valid
    · rw [source]

theorem ConfigPhase.Progress.saves {push : Nat} {body : ConfigBody}
    {phase : ConfigPhase Document}
    (progress : phase.Progress env wanted definition stored state push body) :
    (Task.config body phase).saves wanted = true := by
  cases phase <;> first | rfl | exact progress.elim

/-- The steps of the push which rehydrates the record. -/
theorem pushing_step {push : Nat} {body : ConfigBody}
    {phase : ConfigPhase Document}
    (isStyle : definition.isStyle = true)
    (task : state.tasks push = some (.config body phase))
    (lock : state.configUpdate = some push)
    (sources : state.sources = catalogOf body.sources)
    (progress : phase.Progress env wanted definition stored state push body)
    (undisturbed : Undisturbed env wanted state label)
    (stepped : step env state label = some next)
    (owner : label.owner = some push) :
    Stage env wanted definition stored signature style learn next := by
  have saves : state.saves wanted push = true :=
    (saves_of_task task).trans progress.saves
  cases label with
  | boot | scrollTtl | cacheCall => cases owner
  | drop id =>
      cases owner
      have idle : state.saves wanted push = false := undisturbed
      exact absurd (saves.symm.trans idle) (by simp)
  | configInstall id => exact undisturbed.elim
  | runJob id result =>
      cases owner
      have quiet := record_of_step undisturbed stepped (by simp)
      simp only [step, runJob] at stepped
      split at stepped
      · next work pending =>
        cases stepped
        have performed := @perform_eq Document env state work result
        have tasks := congrArg AppState.tasks performed
        have locks := congrArg AppState.configUpdate performed
        have catalog := congrArg AppState.sources performed
        refine .pushing push body phase
          ((congrFun tasks push).trans task) (locks.trans lock)
          (catalog.trans sources) ?_
        cases phase with
        | readingSources published =>
            rcases quiet with same | ⟨_, same, _, awaits⟩
            · exact same.trans progress
            · cases same
              simp [AppState.awaits, task, Task.awaits] at awaits
        | reconciling published listed =>
            obtain ⟨rfl, ⟨waiting, record⟩ | ⟨rows, finished, _⟩⟩ := progress
            · cases pending.symm.trans waiting
              obtain ⟨rfl, _, _⟩ := undisturbed _ pending trivial
              refine ⟨by rw [← catalog]; rfl, .inr ⟨_,
                Function.update_self _ _ _, ?_⟩⟩
              intro found row
              rw [← record]
              rw [← sources] at found
              exact mem_reconcile_iff (catalog_unique found)
                (mem_catalog found isStyle)
                (KeyedTable.lookup_eq_some.mp found).2 row
            · cases pending.symm.trans finished
        | deletingInvalid restored => exact progress
        | installing restored => exact progress
        | _ => exact progress.elim
      · contradiction
  | configReconcile id =>
      cases owner
      cases phase with
      | readingSources published =>
          simp only [step, configReconcile, task] at stepped
          cases stepped
          exact .pushing push body _ (Function.update_self _ _ _) lock sources
            ⟨rfl, .inl ⟨Function.update_self _ _ _, progress⟩⟩
      | _ => simp [step, configReconcile, task] at stepped
  | configResume id =>
      cases owner
      cases phase with
      | reconciling published listed =>
          obtain ⟨rfl, ⟨waiting, _⟩ | ⟨rows, finished, retained⟩⟩ := progress
          · simp [step, configResume, task, waiting] at stepped
          · simp only [step, configResume, task, finished] at stepped
            have restored := @restored_of_retained Document env wanted
              definition stored body rows published isStyle retained
            rw [← sources] at restored
            split at stepped
            · cases stepped
              exact .pushing push body _ (Function.update_self _ _ _) lock
                sources restored
            · cases stepped
              exact .pushing push body _ (Function.update_self _ _ _) lock
                sources restored
      | deletingInvalid restored =>
          cases job : state.jobs push with
          | none => simp [step, configResume, task, job] at stepped
          | some waiting =>
              cases waiting with
              | pending => simp [step, configResume, task, job] at stepped
              | finished result =>
                  simp only [step, configResume, task, job] at stepped
                  cases stepped
                  exact .pushing push body _ (Function.update_self _ _ _)
                    lock sources progress
      | readingSources published =>
          simp [step, configResume, task] at stepped
      | installing restored => simp [step, configResume, task] at stepped
      | _ => exact progress.elim
  | _ =>
      cases owner
      cases phase <;> first
        | exact progress.elim
        | simp [step, configRequest, configBegin, configSources,
            configPublish, learnRequest, learnResolve, learnExisting,
            learnAnswer, learnCommit, learnPersist, learnFinish, lockHolder,
            unlockHolder, task] at stepped

theorem ConfigPhase.Progress.carry {push : Nat} {body : ConfigBody}
    {phase : ConfigPhase Document}
    (progress : phase.Progress env wanted definition stored state push body)
    (sources : next.sources = state.sources)
    (jobs : next.jobs push = state.jobs push)
    (record : next.learnedStyles.lookup wanted =
      state.learnedStyles.lookup wanted) :
    phase.Progress env wanted definition stored next push body := by
  cases phase with
  | readingSources published => exact record.trans progress
  | reconciling published listed =>
      simpa only [ConfigPhase.Progress, sources, jobs, record] using progress
  | _ => exact progress

/-- A step of another task leaves the stage as it is. -/
theorem Stage.frame {holder : Nat}
    (stage : Stage env wanted definition stored signature style learn state)
    (owned : Owned state) (lock : state.configUpdate = some holder)
    (saves : state.saves wanted holder = true)
    (undisturbed : Undisturbed env wanted state label)
    (stepped : step env state label = some next)
    (running : ∀ deferred, label ≠ .boot deferred)
    (apart : label.owner ≠ some holder) :
    Stage env wanted definition stored signature style learn next := by
  have beside := beside_of_step stepped running
  have sources := sources_of_step owned lock stepped running apart
  have record : next.learnedStyles.lookup wanted =
      state.learnedStyles.lookup wanted := by
    rcases record_of_step undisturbed stepped running with
      same | ⟨id, rfl, held, _⟩
    · exact same
    · exact absurd (held.symm.trans lock) apart
  have same_holder : ∀ id, state.configUpdate = some id → id = holder :=
    fun id held => Option.some.inj (held.symm.trans lock)
  cases stage with
  | persisting generation task held found outcome =>
      obtain rfl := same_holder learn held
      exact .persisting generation ((beside.tasks _ apart).trans task)
        (beside.lock _ apart held) (sources ▸ found) (record ▸ outcome)
  | storing generation task held job =>
      obtain rfl := same_holder learn held
      refine .storing generation ((beside.tasks _ apart).trans task)
        (beside.lock _ apart held) ?_
      rwa [beside.jobs _ apart, record]
  | kept idle =>
      exact absurd (saves.symm.trans (idle holder)) (by simp)
  | pushing push body phase task held published progress =>
      obtain rfl := same_holder push held
      exact .pushing _ body phase ((beside.tasks _ apart).trans task)
        (beside.lock _ apart held) (sources.trans published)
        (progress.carry sources (beside.jobs _ apart) record)

theorem Stage.step
    (isStyle : definition.isStyle = true)
    (signed : env.sourceSignature definition = some signature)
    (owned : Owned state) (locked : SavesLocked wanted state)
    (stage : Stage env wanted definition stored signature style learn state)
    (undisturbed : Undisturbed env wanted state label)
    (stepped : step env state label = some next) :
    Stage env wanted definition stored signature style learn next := by
  have saving : ∀ {id task}, state.tasks id = some task →
      task.saves wanted = true → state.saves wanted id = true :=
    fun task saves => (saves_of_task task).trans saves
  by_cases boots : ∃ deferred, label = .boot deferred
  · -- A process ends between two stages, when no task saves the record.
    obtain ⟨deferred, rfl⟩ := boots
    cases stepped
    refine .kept (fun id => rfl) ?_
    have idle : ∀ id, state.saves wanted id = false := undisturbed
    cases stage with
    | kept _ record => exact record
    | persisting generation task =>
        exact absurd (idle learn) (by simp [saves_of_task task, Task.saves])
    | storing generation task =>
        exact absurd (idle learn) (by simp [saves_of_task task, Task.saves])
    | pushing push body phase task lock sources progress =>
        have saves := saving task progress.saves
        exact absurd (saves.symm.trans (idle push)) (by simp)
  have running : ∀ deferred, label ≠ .boot deferred :=
    fun deferred same => boots ⟨deferred, same⟩
  cases stage with
  | persisting generation task lock found outcome =>
      by_cases owner : label.owner = some learn
      · exact persisting_step signed locked task lock found outcome
          undisturbed stepped owner
      · exact (Stage.persisting generation task lock found outcome).frame
          owned lock (saving task (by simp [Task.saves])) undisturbed stepped
          running owner
  | storing generation task lock job =>
      by_cases owner : label.owner = some learn
      · exact storing_step locked task lock job undisturbed stepped owner
      · exact (Stage.storing generation task lock job).frame owned lock
          (saving task (by simp [Task.saves])) undisturbed stepped running
          owner
  | kept idle record =>
      exact kept_step owned idle record undisturbed stepped running
  | pushing push body phase task lock sources progress =>
      by_cases owner : label.owner = some push
      · exact pushing_step isStyle task lock sources progress undisturbed
          stepped owner
      · exact (Stage.pushing push body phase task lock sources
          progress).frame owned lock (saving task progress.saves)
          undisturbed stepped running owner

end Step

section Run

variable {env : Environment Document} {wanted : String}
  {definition : ChartSource} {stored : Option (StoredLearnedStyle Document)}
  {signature : String} {style : StyleState Document} {learn : Nat}
  {state final : AppState Document}

theorem stage_exec {labels : List (Label Document)}
    (isStyle : definition.isStyle = true)
    (signed : env.sourceSignature definition = some signature)
    (owned : Owned state) (locked : SavesLocked wanted state)
    (stage : Stage env wanted definition stored signature style learn state)
    (run : (configMachine env).exec state labels = some final)
    (undisturbed : (configMachine env).AllSteps (Undisturbed env wanted) state
      labels) :
    Stage env wanted definition stored signature style learn final := by
  refine (Machine.exec_preserves_of_allSteps
    (motive := fun state => (Owned state ∧ SavesLocked wanted state) ∧
      Stage env wanted definition stored signature style learn state)
    ?_ run undisturbed ⟨⟨owned, locked⟩, stage⟩).2
  rintro before label after ⟨⟨owned, locked⟩, stage⟩ met stepped
  exact ⟨⟨owned.moves (step_moves stepped), locked.step owned stepped⟩,
    stage.step isStyle signed owned locked met stepped⟩

end Run

end ChartLocker.Config
