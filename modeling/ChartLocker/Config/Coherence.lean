import ChartLocker.Config.Namespace

/-!
# The coherence of the style map with the catalog

What a learn has read of the catalog is current as long as its generation
lasts, and every entry of the current generation has come from a learn under
the current definition of its source: directly, or through a record and a push
which compared the signatures.  The origin of a value is an arbitrary relation
which contains the installs of the run.
-/

namespace ChartLocker.Config

open Library Cache Catalog

variable {Document : Type}

/-! ## What a learn has read -/

/-- The definition under which a learn runs, from its reading to its install. -/
def LearnPhase.definition : LearnPhase Document → Option ChartSource
  | .reading definition => some definition
  | .fetching definition _ => some definition
  | .refreshing definition => some definition
  | .committing definition _ _ _ => some definition
  | _ => none

def Task.readsCurrent (state : AppState Document) : Task Document → Prop
  | .learn source generation phase =>
      generation % 2 = 0 ∧ generation ≤ state.configGeneration ∧
        ∀ definition, phase.definition = some definition →
          ReadsCatalog state source generation definition
  | _ => True

/-- Every learn whose generation lasts has read the current catalog. -/
def ReadsCurrent (state : AppState Document) : Prop :=
  ∀ id task, state.tasks id = some task → task.readsCurrent state

section Reads

variable {env : Environment Document} {state next : AppState Document}
  {label : Label Document}

theorem generation_of_step (stepped : step env state label = some next)
    (running : ∀ deferred, label ≠ .boot deferred) :
    next.configGeneration = state.configGeneration ∨
      next.configGeneration = state.configGeneration + 1 := by
  cases label with
  | boot deferred => exact absurd rfl (running deferred)
  | scrollTtl ttl =>
      cases stepped
      simp only [setScrollTtl]
      split <;> exact .inl rfl
  | cacheCall op =>
      cases stepped
      exact .inl rfl
  | runJob id outcome =>
      simp only [step, runJob] at stepped
      split at stepped
      · cases stepped
        rw [perform_eq]
        exact .inl rfl
      · contradiction
  | _ =>
      simp only [step, configRequest, configBegin, configSources,
        configReconcile, configResume, configInstall, configPublish,
        learnRequest, learnResolve, learnExisting, learnAnswer, learnCommit,
        learnPersist, learnFinish, lockHolder, unlockHolder,
        dropTask] at stepped
      repeat' split at stepped
      all_goals first
        | contradiction
        | (cases stepped; exact .inl rfl)
        | (cases stepped; exact .inr rfl)

/-- Either the catalog and its generation stay, or no learn in progress can
commit any more. -/
theorem steady_or_passed (parity : Parity state)
    (stepped : step env state label = some next)
    (running : ∀ deferred, label ≠ .boot deferred) :
    (next.sources = state.sources ∧
        next.configGeneration = state.configGeneration) ∨
      (state.configGeneration ≤ next.configGeneration ∧
        ∀ generation, generation % 2 = 0 →
          generation ≤ state.configGeneration →
          generation ≠ next.configGeneration) := by
  have sources := (beside_of_step stepped running).sources
  by_cases published : ∃ id, label = .configSources id
  · -- The catalog is written while the generation is odd.
    obtain ⟨id, rfl⟩ := published
    right
    simp only [step, configSources] at stepped
    split at stepped
    · next body task =>
      cases stepped
      have odd := Nat.odd_iff.mp
        (parity.odd.mpr ⟨id, replacing_of_task task⟩)
      refine ⟨le_rfl, fun generation even _ same => ?_⟩
      change generation = state.configGeneration at same
      omega
    · contradiction
  have unchanged := sources fun id same => published ⟨id, same⟩
  rcases generation_of_step stepped running with same | later
  · exact .inl ⟨unchanged, same⟩
  · right
    rw [later]
    exact ⟨Nat.le_succ _, fun earlier _ le => (Nat.lt_succ_of_le le).ne⟩

/-- The definitions which the step of a learn reads or keeps. -/
theorem readsCurrent_own {id : Nat} {task : Task Document}
    (reads : ReadsCurrent state)
    (stepped : step env state label = some next)
    (owner : label.owner = some id) (running : next.tasks id = some task) :
    task.readsCurrent next := by
  cases label with
  | boot | scrollTtl | cacheCall => cases owner
  | learnRequest other source now =>
      cases owner
      simp only [step, learnRequest] at stepped
      split at stepped
      · next fresh =>
        cases stepped
        cases (Function.update_self _ _ _).symm.trans running
        refine ⟨fresh.1, le_rfl, fun definition found => ?_⟩
        cases found
      · contradiction
  | learnResolve other =>
      cases owner
      simp only [step, learnResolve] at stepped
      split at stepped
      · next task =>
        obtain ⟨even, le, _⟩ := reads id _ task
        split at stepped
        · next definition found =>
          repeat' split at stepped
          all_goals
            cases stepped
            cases (Function.update_self _ _ _).symm.trans running
          exact ⟨even, le, fun _ same _ => by cases same; exact found⟩
        · cases stepped
          cases (Function.update_self _ _ _).symm.trans running
      · contradiction
  | learnExisting other =>
      cases owner
      simp only [step, learnExisting] at stepped
      split at stepped
      · next task =>
        obtain ⟨even, le, read⟩ := reads id _ task
        cases stepped
        cases (Function.update_self _ _ _).symm.trans running
        exact ⟨even, le, read⟩
      · contradiction
  | learnAnswer other answer =>
      cases owner
      simp only [step, learnAnswer] at stepped
      split at stepped
      · next task =>
        obtain ⟨even, le, read⟩ := reads id _ task
        repeat' split at stepped
        all_goals
          cases stepped
          cases (Function.update_self _ _ _).symm.trans running
        · exact ⟨even, le, read⟩
        · exact ⟨even, le, read⟩
      · contradiction
  | learnCommit other now =>
      cases owner
      simp only [step, learnCommit] at stepped
      split at stepped
      · next task free =>
        obtain ⟨even, le, _⟩ := reads id _ task
        repeat' split at stepped
        all_goals
          cases stepped
          cases (Function.update_self _ _ _).symm.trans running
        exact ⟨even, le, fun _ found => by cases found⟩
      · next task free =>
        obtain ⟨even, le, _⟩ := reads id _ task
        repeat' split at stepped
        all_goals
          cases stepped
          cases (Function.update_self _ _ _).symm.trans running
        exact ⟨even, le, fun _ found => by cases found⟩
      · contradiction
  | learnPersist other =>
      cases owner
      simp only [step, learnPersist] at stepped
      split at stepped
      · next task =>
        obtain ⟨even, le, _⟩ := reads id _ task
        repeat' split at stepped
        all_goals
          cases stepped
          cases (Function.update_self _ _ _).symm.trans running
        exact ⟨even, le, fun _ found => by cases found⟩
      · contradiction
  | runJob other outcome =>
      cases owner
      simp only [step, runJob] at stepped
      split at stepped
      · cases stepped
        rw [perform_eq] at running ⊢
        exact reads id task running
      · contradiction
  | _ =>
      cases owner
      simp only [step, configRequest, configBegin, configSources,
        configReconcile, configResume, configInstall, configPublish,
        learnFinish, lockHolder, unlockHolder, dropTask] at stepped
      repeat' split at stepped
      all_goals first
        | contradiction
        | (cases stepped
           cases (Function.update_self _ _ _).symm.trans running
           done)
        | (cases stepped
           cases (Function.update_self _ _ _).symm.trans running
           trivial)

theorem ReadsCurrent.step (reads : ReadsCurrent state)
    (parity : Parity state)
    (stepped : step env state label = some next) : ReadsCurrent next := by
  intro id task running
  by_cases boots : ∃ deferred, label = .boot deferred
  · obtain ⟨deferred, rfl⟩ := boots
    cases stepped
    cases running
  have started : ∀ deferred, label ≠ .boot deferred :=
    fun deferred same => boots ⟨deferred, same⟩
  by_cases owner : label.owner = some id
  · exact readsCurrent_own reads stepped owner running
  · rw [(beside_of_step stepped started).tasks id owner] at running
    have before := reads id task running
    cases task with
    | config | holder => trivial
    | learn source generation phase =>
        obtain ⟨even, le, read⟩ := before
        rcases steady_or_passed parity stepped started with
          ⟨sources, same⟩ | ⟨later, passed⟩
        · refine ⟨even, le.trans same.ge, fun definition found current => ?_⟩
          rw [sources]
          exact read definition found (current.trans same)
        · exact ⟨even, le.trans later, fun definition _ current =>
            absurd current (passed generation even le)⟩

end Reads

/-! ## Entries of the generation which is being published -/

/-- The push replaces the configuration and has not installed its entries. -/
def Task.preparing (task : Task Document) : Bool :=
  task.replacing && !task.publishing

/-- While a push prepares its entries there is none of a later generation. -/
def Unpublished (state : AppState Document) : Prop :=
  ∀ id task, state.tasks id = some task → task.preparing = true →
    ∀ style ∈ state.styleState.rows,
      style.configGeneration ≤ state.configGeneration

section Unpublished

variable {env : Environment Document} {state next : AppState Document}
  {label : Label Document}

theorem entries_of_step (stepped : step env state label = some next)
    (running : ∀ deferred, label ≠ .boot deferred)
    (commits : ∀ id now, label ≠ .learnCommit id now)
    (installs : ∀ id, label ≠ .configInstall id) :
    next.styleState = state.styleState := by
  cases label with
  | boot deferred => exact absurd rfl (running deferred)
  | learnCommit id now => exact absurd rfl (commits id now)
  | configInstall id => exact absurd rfl (installs id)
  | scrollTtl ttl =>
      cases stepped
      simp only [setScrollTtl]
      split <;> rfl
  | cacheCall op =>
      cases stepped
      rfl
  | runJob id outcome =>
      simp only [step, runJob] at stepped
      split at stepped
      · cases stepped
        rw [perform_eq]
        rfl
      · contradiction
  | _ =>
      simp only [step, configRequest, configBegin, configSources,
        configReconcile, configResume, configPublish, learnRequest,
        learnResolve, learnExisting, learnAnswer, learnPersist, learnFinish,
        lockHolder, unlockHolder, dropTask] at stepped
      repeat' split at stepped
      all_goals first
        | contradiction
        | (cases stepped; rfl)

theorem free_of_commit {id : Nat} {now : Int}
    (stepped : step env state (.learnCommit id now) = some next) :
    state.configUpdate = none := by
  simp only [step, learnCommit] at stepped
  split at stepped
  · next free => exact free
  · next free => exact free
  · contradiction

/-- How a task comes to prepare its entries. -/
theorem preparing_own {id : Nat} {task : Task Document}
    (stepped : step env state label = some next)
    (owner : label.owner = some id) (running : next.tasks id = some task)
    (preparing : task.preparing = true) :
    (∃ before, state.tasks id = some before ∧ before.preparing = true) ∨
      label = .configBegin id ∧
        next.configGeneration = state.configGeneration + 1 := by
  cases label with
  | boot | scrollTtl | cacheCall => cases owner
  | runJob other outcome =>
      cases owner
      simp only [step, runJob] at stepped
      split at stepped
      · cases stepped
        rw [perform_eq] at running
        exact .inl ⟨task, running, preparing⟩
      · contradiction
  | _ =>
      cases owner
      simp only [step, configRequest, configBegin, configSources,
        configReconcile, configResume, configInstall, configPublish,
        learnRequest, learnResolve, learnExisting, learnAnswer, learnCommit,
        learnPersist, learnFinish, lockHolder, unlockHolder,
        dropTask] at stepped
      repeat' split at stepped
      all_goals first
        | contradiction
        | (cases stepped
           cases (Function.update_self _ _ _).symm.trans running
           done)
        | (cases stepped
           cases (Function.update_self _ _ _).symm.trans running
           first
            | exact .inr ⟨rfl, rfl⟩
            | exact .inl ⟨_, by assumption, rfl⟩
            | cases preparing)

theorem Unpublished.step (waits : Unpublished state) (owned : Owned state)
    (ahead : Ahead state) (stepped : step env state label = some next) :
    Unpublished next := by
  intro id task running preparing
  by_cases boots : ∃ deferred, label = .boot deferred
  · obtain ⟨deferred, rfl⟩ := boots
    cases stepped
    cases running
  have started : ∀ deferred, label ≠ .boot deferred :=
    fun deferred same => boots ⟨deferred, same⟩
  have later : state.configGeneration ≤ next.configGeneration := by
    rcases generation_of_step stepped started with same | same <;> omega
  have before : (∃ earlier, state.tasks id = some earlier ∧
      earlier.preparing = true) ∨ label = .configBegin id ∧
        next.configGeneration = state.configGeneration + 1 := by
    by_cases owner : label.owner = some id
    · exact preparing_own stepped owner running preparing
    · rw [(beside_of_step stepped started).tasks id owner] at running
      exact .inl ⟨task, running, preparing⟩
  rcases before with ⟨earlier, found, prepared⟩ | ⟨rfl, began⟩
  · have replaces : state.replacing id = true := by
      rw [replacing_of_task found]
      exact (Bool.and_eq_true_iff.mp prepared).1
    have lock := owned id replaces
    have same : next.styleState = state.styleState := by
      refine entries_of_step stepped started ?_ ?_
      · rintro other now rfl
        rw [free_of_commit stepped] at lock
        cases lock
      · rintro other rfl
        simp only [Config.step, configInstall] at stepped
        split at stepped
        · next installing =>
          have unique := owned.unique replaces
            (replacing_of_task installing)
          cases stepped
          subst unique
          cases (Function.update_self _ _ _).symm.trans running
          cases preparing
        · contradiction
    rw [same]
    exact fun style member =>
      (waits id earlier found prepared style member).trans later
  · rw [entries_of_step stepped started (by simp) (by simp), began]
    exact ahead.entries

end Unpublished

/-! ## The origin of entries and records -/

section Origin

variable (env : Environment Document)
  (origin : String → ChartSource → StyleContent Document → Prop)

/-- The definitions are equal, or a record of the one passes for the other. -/
def SameDefinition (learned current : ChartSource) : Prop :=
  learned = current ∨ ∃ signature,
    env.sourceSignature learned = some signature ∧
      env.sourceSignature current = some signature

/-- The content of the entry was learned under the current definition. -/
def Backed (sources : KeyedTable ChartSource.id)
    (style : StyleState Document) : Prop :=
  ∃ learned current, origin style.source learned style.content ∧
    sources.lookup style.source = some current ∧
    SameDefinition env learned current

def BackedRow (row : StoredLearnedStyle Document) : Prop :=
  ∃ learned, origin row.source learned row.state.content ∧
    env.sourceSignature learned = some row.sourceSignature

def Task.backed (sources : KeyedTable ChartSource.id) :
    Task Document → Prop
  | .config _ (.reconciling _ catalog) => ∀ definition ∈ catalog,
      sources.lookup definition.id = some definition
  | .config _ (.deletingInvalid restored) =>
      ∀ style ∈ restored, Backed env origin sources style
  | .config _ (.installing restored) =>
      ∀ style ∈ restored, Backed env origin sources style
  | .learn source _ (.persisting style) =>
      style.source = source ∧ Backed env origin sources style
  | _ => True

def Job.backed : Job Document → Prop
  | .pending (.store row) => BackedRow env origin row
  | .finished (.retained rows) => ∀ row ∈ rows, BackedRow env origin row
  | _ => True

structure Provenance (state : AppState Document) : Prop where
  rows : ∀ row ∈ state.learnedStyles.rows, BackedRow env origin row
  jobs : ∀ id job, state.jobs id = some job → job.backed env origin
  tasks : ∀ id task, state.tasks id = some task →
    task.backed env origin state.sources
  matching : ∀ id body published catalog job,
    state.tasks id = some (.config body (.reconciling published catalog)) →
    state.jobs id = some job → job.matchesCatalog env catalog
  entries : ∀ style ∈ state.styleState.rows,
    style.configGeneration =
      state.configGeneration + state.configGeneration % 2 →
    Backed env origin state.sources style

/-- A learn which commits at this step is in the relation. -/
def Originates (state : AppState Document) (label : Label Document) : Prop :=
  ∀ id now next source generation definition current content validator style,
    label = .learnCommit id now →
    step env state label = some next →
    state.tasks id = some (.learn source generation
      (.committing definition current content validator)) →
    next.tasks id = some (.learn source generation (.persisting style)) →
    origin source definition content

end Origin

section Provenance

variable {env : Environment Document}
  {origin : String → ChartSource → StyleContent Document → Prop}
  {state next : AppState Document} {label : Label Document} {id : Nat}

/-- What a learn does when it commits. -/
theorem commit_cases {now : Int}
    (stepped : step env state (.learnCommit id now) = some next) :
    next = state.finish id ∨
    (∃ source definition existing,
      state.tasks id = some (.learn source state.configGeneration
        (.refreshing definition)) ∧
      state.currentStyle source state.configGeneration = some existing ∧
      next = installStyle env state id
        { existing with source := source, fetchedAt := now }
        state.configGeneration definition false) ∨
    ∃ source definition current content validator,
      state.tasks id = some (.learn source state.configGeneration
        (.committing definition current content validator)) ∧
      next = installStyle env state id
        { source := source
          content := content
          configGeneration := state.configGeneration
          generation := current.elim state.configGeneration
            StyleState.generation
          fetchedAt := now
          upstreamValidator := validator }
        state.configGeneration definition current.isNone := by
  simp only [step, learnCommit] at stepped
  split at stepped
  · next task free =>
    split at stepped
    · next same =>
      subst same
      split at stepped
      · next existing found =>
        cases stepped
        exact .inr (.inl ⟨_, _, existing, task, found, rfl⟩)
      · cases stepped
        exact .inl rfl
    · cases stepped
      exact .inl rfl
  · next task free =>
    split at stepped
    · next same =>
      subst same
      split at stepped
      · cases stepped
        exact .inl rfl
      · cases stepped
        exact .inr (.inr ⟨_, _, _, _, _, task, rfl⟩)
    · cases stepped
      exact .inl rfl
  · contradiction

theorem SameDefinition.signature {learned current : ChartSource}
    {signature : String} (same : SameDefinition env learned current)
    (signed : env.sourceSignature current = some signature) :
    env.sourceSignature learned = some signature := by
  rcases same with rfl | ⟨other, left, right⟩
  · exact signed
  · rw [left, ← right, signed]

/-- A job writes and returns records which are backed. -/
theorem performed_backed (rows : ∀ row ∈ state.learnedStyles.rows,
      BackedRow env origin row) {work : Work Document} {outcome : Outcome}
    (pending : Job.backed env origin (.pending work)) :
    (∀ row ∈ (perform env state work outcome).1.learnedStyles.rows,
      BackedRow env origin row) ∧
    Job.backed env origin
      (.finished (perform env state work outcome).2) := by
  constructor
  · intro row member
    rcases perform_rows member with old | rfl
    · exact rows row old
    · exact pending
  · cases answer : (perform env state work outcome).2 with
    | retained kept =>
        obtain ⟨signatures, rfl, rfl⟩ := perform_retained answer
        exact fun row member =>
          rows row (mem_reconcileLearnedStyles member).1
    | _ => trivial

theorem Provenance.nextRows (provenance : Provenance env origin state)
    (stepped : step env state label = some next) :
    ∀ row ∈ next.learnedStyles.rows, BackedRow env origin row := by
  cases label with
  | boot deferred =>
      cases stepped
      exact provenance.rows
  | runJob id outcome =>
      simp only [step, runJob] at stepped
      split at stepped
      · next work pending =>
        cases stepped
        exact (performed_backed provenance.rows
          (provenance.jobs id _ pending)).1
      · contradiction
  | _ =>
      have same := (beside_of_step stepped (by simp)).learnedStyles (by simp)
      rw [same]
      exact provenance.rows

theorem Provenance.ownJob (provenance : Provenance env origin state)
    (stepped : step env state label = some next)
    (owner : label.owner = some id) {job : Job Document}
    (running : next.jobs id = some job) : job.backed env origin := by
  cases label with
  | boot | scrollTtl | cacheCall => cases owner
  | runJob other outcome =>
      cases owner
      simp only [step, runJob] at stepped
      split at stepped
      · next work pending =>
        cases stepped
        cases (Function.update_self _ _ _).symm.trans running
        exact (performed_backed provenance.rows
          (provenance.jobs id _ pending)).2
      · contradiction
  | learnPersist other =>
      cases owner
      simp only [step, learnPersist] at stepped
      split at stepped
      · next source generation style task =>
        obtain ⟨rfl, learned, current, learns, found, same⟩ :=
          provenance.tasks id _ task
        split at stepped
        · next signature signed =>
          split at stepped
          · cases stepped
            cases (Function.update_self _ _ _).symm.trans running
            refine ⟨learned, learns, same.signature ?_⟩
            rw [found, Option.bind_some] at signed
            exact signed
          · cases stepped
            exact provenance.jobs id job running
        · cases stepped
          exact provenance.jobs id job running
      · contradiction
  | _ =>
      cases owner
      simp only [step, configRequest, configBegin, configSources,
        configReconcile, configResume, configInstall, configPublish,
        learnRequest, learnResolve, learnExisting, learnAnswer, learnCommit,
        learnFinish, lockHolder, unlockHolder, dropTask] at stepped
      repeat' split at stepped
      all_goals first
        | contradiction
        | (cases stepped
           exact provenance.jobs id job running)
        | (cases stepped
           cases (Function.update_self _ _ _).symm.trans running
           done)
        | (cases stepped
           cases (Function.update_self _ _ _).symm.trans running
           trivial)

/-- The entry of the current generation which a learn reads again. -/
theorem Provenance.currentStyle (provenance : Provenance env origin state)
    (even : state.configGeneration % 2 = 0) {source : String}
    {existing : StyleState Document} {now : Int}
    (found : state.currentStyle source state.configGeneration =
      some existing) :
    Backed env origin state.sources
      { existing with source := source, fetchedAt := now } := by
  obtain ⟨stored, current⟩ := Option.filter_eq_some_iff.mp found
  obtain ⟨member, rfl⟩ := KeyedTable.lookup_eq_some.mp stored
  refine provenance.entries existing member ?_
  rw [even, Nat.add_zero]
  exact of_decide_eq_true current

/-- A push goes on with records of the catalog which it has published. -/
theorem Provenance.restored (provenance : Provenance env origin state)
    {body : ConfigBody} {published : Nat} {catalog : List ChartSource}
    {rows : List (StoredLearnedStyle Document)}
    (task : state.tasks id = some (.config body
      (.reconciling published catalog)))
    (finished : state.jobs id = some (.finished (.retained rows))) :
    ∀ style ∈ (rows.filter (validRetained env catalog)).map
        (fun row => row.state.intoLive row.source published),
      Backed env origin state.sources style := by
  intro style restored
  obtain ⟨row, kept, rfl⟩ := List.mem_map.mp restored
  have member := (List.mem_filter.mp kept).1
  obtain ⟨definition, listed, named, signed⟩ :=
    provenance.matching id body published catalog _ task finished row member
  obtain ⟨learned, learns, same⟩ := provenance.jobs id _ finished row member
  have found := provenance.tasks id _ task definition listed
  rw [named] at found
  exact ⟨learned, definition, learns, found, .inr ⟨_, same, signed⟩⟩

theorem Provenance.ownTask (provenance : Provenance env origin state)
    (parity : Parity state) (reads : ReadsCurrent state)
    (originates : Originates env origin state label)
    (stepped : step env state label = some next)
    (owner : label.owner = some id) {task : Task Document}
    (running : next.tasks id = some task) :
    task.backed env origin next.sources := by
  cases label with
  | boot | scrollTtl | cacheCall => cases owner
  | runJob other outcome =>
      cases owner
      simp only [step, runJob] at stepped
      split at stepped
      · cases stepped
        rw [perform_eq] at running ⊢
        exact provenance.tasks id task running
      · contradiction
  | learnCommit other now =>
      cases owner
      have even := Nat.even_iff.mp (parity.even_of_free
        (free_of_commit stepped))
      rcases commit_cases stepped with rfl | ⟨source, definition, existing,
        found, current, rfl⟩ | ⟨source, definition, current, content,
        validator, found, rfl⟩
      · cases (Function.update_self _ _ _).symm.trans running
      · cases (Function.update_self _ _ _).symm.trans running
        exact ⟨rfl, provenance.currentStyle even current⟩
      · cases (Function.update_self _ _ _).symm.trans running
        refine ⟨rfl, definition, definition, ?_, ?_, .inl rfl⟩
        · exact originates _ _ _ _ _ _ _ _ _ _ rfl stepped found
            (Function.update_self _ _ _)
        · exact (reads id _ found).2.2 definition rfl rfl
  | configReconcile other =>
      cases owner
      simp only [step, configReconcile] at stepped
      split at stepped
      · cases stepped
        cases (Function.update_self _ _ _).symm.trans running
        exact fun definition member => KeyedTable.lookup_eq_some.mpr
          ⟨(List.mem_filter.mp member).1, rfl⟩
      · contradiction
  | configResume other =>
      cases owner
      simp only [step, configResume] at stepped
      split at stepped
      · cases stepped
        cases (Function.update_self _ _ _).symm.trans running
        trivial
      · cases stepped
        cases (Function.update_self _ _ _).symm.trans running
      · next task finished =>
        have restored := provenance.restored task finished
        split at stepped
        · cases stepped
          cases (Function.update_self _ _ _).symm.trans running
          exact restored
        · cases stepped
          cases (Function.update_self _ _ _).symm.trans running
          exact restored
      · cases stepped
        cases (Function.update_self _ _ _).symm.trans running
        exact fun _ member => absurd member List.not_mem_nil
      · next task _ =>
        have restored := provenance.tasks id _ task
        cases stepped
        cases (Function.update_self _ _ _).symm.trans running
        exact restored
      · contradiction
  | _ =>
      cases owner
      simp only [step, configRequest, configBegin, configSources,
        configInstall, configPublish, learnRequest, learnResolve,
        learnExisting, learnAnswer, learnPersist, learnFinish, lockHolder,
        unlockHolder, dropTask] at stepped
      repeat' split at stepped
      all_goals first
        | contradiction
        | (cases stepped
           cases (Function.update_self _ _ _).symm.trans running
           done)
        | (cases stepped
           cases (Function.update_self _ _ _).symm.trans running
           trivial)

/-- The job of a push asks about, or returns rows of, the catalog which the
push has read. -/
theorem Provenance.ownMatching (provenance : Provenance env origin state)
    (stepped : step env state label = some next)
    (owner : label.owner = some id) {body : ConfigBody} {published : Nat}
    {catalog : List ChartSource} {job : Job Document}
    (running : next.tasks id = some (.config body
      (.reconciling published catalog)))
    (working : next.jobs id = some job) : job.matchesCatalog env catalog := by
  cases label with
  | boot | scrollTtl | cacheCall => cases owner
  | runJob other outcome =>
      cases owner
      simp only [step, runJob] at stepped
      split at stepped
      · next work pending =>
        cases stepped
        rw [perform_eq] at running
        cases (Function.update_self _ _ _).symm.trans working
        exact matchesCatalog_perform
          (provenance.matching id body published catalog _ running pending)
      · contradiction
  | configReconcile other =>
      cases owner
      simp only [step, configReconcile] at stepped
      split at stepped
      · cases stepped
        cases (Function.update_self _ _ _).symm.trans running
        cases (Function.update_self _ _ _).symm.trans working
        intro entry listed
        obtain ⟨definition, member, signed⟩ := List.mem_filterMap.mp listed
        obtain ⟨signature, same, rfl⟩ := Option.map_eq_some_iff.mp signed
        exact ⟨definition, member, rfl, same⟩
      · contradiction
  | _ =>
      cases owner
      simp only [step, configRequest, configBegin, configSources,
        configResume, configInstall, configPublish, learnRequest,
        learnResolve, learnExisting, learnAnswer, learnCommit, learnPersist,
        learnFinish, lockHolder, unlockHolder, dropTask] at stepped
      repeat' split at stepped
      all_goals first
        | contradiction
        | (cases stepped
           cases (Function.update_self _ _ _).symm.trans running)

/-- Entries which stay while the catalog stays. -/
theorem Provenance.keptEntries (provenance : Provenance env origin state)
    (ahead : Ahead state) (entries : next.styleState = state.styleState)
    (sources : next.sources = state.sources)
    (generation : next.configGeneration = state.configGeneration ∨
      next.configGeneration = state.configGeneration + 1) :
    ∀ style ∈ next.styleState.rows,
      style.configGeneration =
        next.configGeneration + next.configGeneration % 2 →
      Backed env origin next.sources style := by
  rw [entries, sources]
  intro style member valid
  have bound := ahead.entries style member
  refine provenance.entries style member ?_
  rcases generation with same | later <;> omega

theorem Provenance.nextEntries (provenance : Provenance env origin state)
    (parity : Parity state) (ahead : Ahead state)
    (waits : Unpublished state) (reads : ReadsCurrent state)
    (originates : Originates env origin state label)
    (stepped : step env state label = some next) :
    ∀ style ∈ next.styleState.rows,
      style.configGeneration =
        next.configGeneration + next.configGeneration % 2 →
      Backed env origin next.sources style := by
  cases label with
  | boot deferred =>
      cases stepped
      intro style member
      cases member
  | learnCommit other now =>
      have even := Nat.even_iff.mp (parity.even_of_free
        (free_of_commit stepped))
      have inserted : ∀ (entry : StyleState Document) definition renewed,
          Backed env origin state.sources entry →
          ∀ style ∈ (installStyle env state other entry
              state.configGeneration definition renewed).styleState.rows,
            style.configGeneration =
              state.configGeneration + state.configGeneration % 2 →
            Backed env origin state.sources style := by
        intro entry definition renewed backed style member valid
        rcases KeyedTable.mem_insertOrReplace.mp member with rfl | ⟨old, _⟩
        · exact backed
        · exact provenance.entries style old valid
      have own := fun task => @Provenance.ownTask Document env origin state
        next _ other provenance parity reads originates stepped rfl task
      rcases commit_cases stepped with rfl | ⟨source, definition, existing,
        found, current, rfl⟩ | ⟨source, definition, current, content,
        validator, found, rfl⟩
      · exact provenance.entries
      · exact inserted _ _ _ (provenance.currentStyle even current)
      · exact inserted _ _ _ (own _ (Function.update_self _ _ _)).2
  | configInstall other =>
      simp only [step, configInstall] at stepped
      split at stepped
      · next task =>
        have restored := provenance.tasks other _ task
        cases stepped
        intro style member _
        rcases KeyedTable.mem_of_mem_foldl_insertOrReplace member with
          old | installed
        · cases old
        · exact restored style installed
      · contradiction
  | configSources other =>
      have same := entries_of_step stepped (by simp) (by simp) (by simp)
      simp only [step, configSources] at stepped
      split at stepped
      · next task =>
        -- The generation is odd, and no entry is ahead of it.
        have odd := Nat.odd_iff.mp
          (parity.odd.mpr ⟨other, replacing_of_task task⟩)
        have settled := waits other _ task rfl
        cases stepped
        intro style member valid
        have bound := settled style member
        change style.configGeneration =
          state.configGeneration + state.configGeneration % 2 at valid
        omega
      · contradiction
  | _ =>
      exact provenance.keptEntries ahead
        (entries_of_step stepped (by simp) (by simp) (by simp))
        ((beside_of_step stepped (by simp)).sources (by simp))
        (generation_of_step stepped (by simp))

/-- The task of another request keeps its values: only the holder of the lock
publishes a catalog, and only the holder has values which depend on it. -/
theorem Provenance.otherTask (provenance : Provenance env origin state)
    (owned : Owned state) (locked : ∀ wanted, SavesLocked wanted state)
    (stepped : step env state label = some next)
    (running : ∀ deferred, label ≠ .boot deferred)
    (other : label.owner ≠ some id) {task : Task Document}
    (found : state.tasks id = some task) :
    task.backed env origin next.sources := by
  have beside := beside_of_step stepped running
  have before := provenance.tasks id task found
  by_cases published : ∃ holder, label = .configSources holder
  · obtain ⟨holder, rfl⟩ := published
    simp only [step, configSources] at stepped
    split at stepped
    · next writing =>
      have lock := owned holder (replacing_of_task writing)
      have apart : state.configUpdate ≠ some id := fun held =>
        other (lock.symm.trans held)
      have idle : task.replacing = true → False := fun replaces =>
        apart (owned id ((replacing_of_task found).trans replaces))
      cases task with
      | holder => trivial
      | config body phase =>
          cases phase with
          | reconciling | deletingInvalid | installing =>
              exact (idle rfl).elim
          | _ => trivial
      | learn source generation phase =>
          cases phase with
          | persisting style =>
              refine absurd (locked source id ?_) apart
              simp [saves_of_task found, Task.saves]
          | _ => trivial
    · contradiction
  · rw [beside.sources fun holder same => published ⟨holder, same⟩]
    exact before

theorem Provenance.step (provenance : Provenance env origin state)
    (parity : Parity state) (ahead : Ahead state)
    (waits : Unpublished state) (reads : ReadsCurrent state)
    (locked : ∀ wanted, SavesLocked wanted state)
    (originates : Originates env origin state label)
    (stepped : step env state label = some next) :
    Provenance env origin next := by
  have rows := provenance.nextRows stepped
  have entries := provenance.nextEntries parity ahead waits reads originates
    stepped
  by_cases boots : ∃ deferred, label = .boot deferred
  · obtain ⟨deferred, rfl⟩ := boots
    cases stepped
    refine ⟨rows, ?_, ?_, ?_, entries⟩
    · intro id job running
      cases running
    · intro id task running
      cases running
    · intro id body published catalog job running
      cases running
  have running : ∀ deferred, label ≠ .boot deferred :=
    fun deferred same => boots ⟨deferred, same⟩
  have beside := beside_of_step stepped running
  refine ⟨rows, ?_, ?_, ?_, entries⟩
  · intro id job working
    by_cases owner : label.owner = some id
    · exact provenance.ownJob stepped owner working
    · rw [beside.jobs id owner] at working
      exact provenance.jobs id job working
  · intro id task found
    by_cases owner : label.owner = some id
    · exact provenance.ownTask parity reads originates stepped owner found
    · rw [beside.tasks id owner] at found
      exact provenance.otherTask parity.owned locked stepped running owner
        found
  · intro id body published catalog job found working
    by_cases owner : label.owner = some id
    · exact provenance.ownMatching stepped owner found working
    · rw [beside.tasks id owner] at found
      rw [beside.jobs id owner] at working
      exact provenance.matching id body published catalog job found working

end Provenance

/-! ## Runs -/

/-- Everything which the coherence of a state rests on. -/
structure Coherent (env : Environment Document)
    (origin : String → ChartSource → StyleContent Document → Prop)
    (state : AppState Document) : Prop where
  parity : Parity state
  ahead : Ahead state
  waits : Unpublished state
  reads : ReadsCurrent state
  locked : ∀ wanted, SavesLocked wanted state
  provenance : Provenance env origin state

section Runs

variable {env : Environment Document}
  {origin : String → ChartSource → StyleContent Document → Prop}
  {state next final : AppState Document} {label : Label Document}
  {labels : List (Label Document)}

theorem coherent_firstBoot : Coherent env origin (firstBoot env) where
  parity := parity_firstBoot env
  ahead := ahead_booted env _ _
  waits := fun id task running => by cases running
  reads := fun id task running => by cases running
  locked := fun wanted id saves => by cases saves
  provenance := by
    refine ⟨?_, ?_, ?_, ?_, ?_⟩
    · intro row member
      cases member
    · intro id job running
      cases running
    · intro id task running
      cases running
    · intro id body published catalog job running
      cases running
    · intro style member
      cases member

theorem Coherent.step (coherent : Coherent env origin state)
    (kept : ¬ losesPush state label)
    (originates : Originates env origin state label)
    (stepped : step env state label = some next) :
    Coherent env origin next where
  parity := coherent.parity.moves (step_moves stepped) kept
  ahead := step_ahead coherent.ahead coherent.parity.owned stepped
  waits := coherent.waits.step coherent.parity.owned coherent.ahead stepped
  reads := coherent.reads.step coherent.parity stepped
  locked := fun wanted =>
    (coherent.locked wanted).step coherent.parity.owned stepped
  provenance := coherent.provenance.step coherent.parity coherent.ahead
    coherent.waits coherent.reads coherent.locked originates stepped

theorem coherent_exec
    (run : (configMachine env).exec (firstBoot env) labels = some final)
    (kept : (configMachine env).AllSteps
      (fun state label => ¬ losesPush state label) (firstBoot env) labels)
    (originates : (configMachine env).AllSteps (Originates env origin)
      (firstBoot env) labels) : Coherent env origin final :=
  Machine.exec_preserves_of_allSteps
    (fun _ _ _ coherent met stepped =>
      coherent.step met.1 met.2 stepped)
    run (Machine.allSteps_and kept originates) coherent_firstBoot

/-- A learn of the run installed the content under a definition which was
then the current one. -/
def LearnedUnder (env : Environment Document) (labels : List (Label Document))
    (source : String) (definition : ChartSource)
    (content : StyleContent Document) : Prop :=
  ∃ done rest id now before after generation current validator style,
    labels = done ++ .learnCommit id now :: rest ∧
    (configMachine env).exec (firstBoot env) done = some before ∧
    (configMachine env).step before (.learnCommit id now) = some after ∧
    before.tasks id = some (.learn source generation
      (.committing definition current content validator)) ∧
    after.tasks id = some (.learn source generation (.persisting style)) ∧
    before.sources.lookup source = some definition

/-- A learn which commits began at the current generation and has read the
current catalog. -/
theorem commit_reads {id : Nat} {now : Int} {source : String}
    {generation : Nat} {style : StyleState Document}
    (reads : ReadsCurrent state)
    (stepped : step env state (.learnCommit id now) = some next)
    (installed : next.tasks id =
      some (.learn source generation (.persisting style))) :
    generation = state.configGeneration ∧ ∃ phase definition,
      state.tasks id = some (.learn source generation phase) ∧
      phase.definition = some definition ∧
      state.sources.lookup source = some definition := by
  rcases commit_cases stepped with rfl | ⟨source, definition, existing,
    found, current, rfl⟩ | ⟨source, definition, current, content, validator,
    found, rfl⟩
  · cases (Function.update_self _ _ _).symm.trans installed
  · cases (Function.update_self _ _ _).symm.trans installed
    exact ⟨rfl, _, definition, found, rfl,
      (reads id _ found).2.2 definition rfl rfl⟩
  · cases (Function.update_self _ _ _).symm.trans installed
    exact ⟨rfl, _, definition, found, rfl,
      (reads id _ found).2.2 definition rfl rfl⟩

/-- The invariants of a state inside a run, without the origins. -/
theorem coherent_within {done rest : List (Label Document)}
    (split : labels = done ++ rest)
    (reached : (configMachine env).exec (firstBoot env) done = some state)
    (kept : (configMachine env).AllSteps
      (fun state label => ¬ losesPush state label) (firstBoot env) labels) :
    Coherent env (fun _ _ _ => True) state := by
  have anything : (configMachine env).AllSteps
      (Originates env fun _ _ _ => True) (firstBoot env) done := by
    refine Machine.allSteps_of_labels fun label _ state => ?_
    unfold Originates
    intros
    trivial
  rw [split] at kept
  exact coherent_exec reached (Machine.allSteps_append.mp kept).1 anything

theorem originates_learnedUnder
    (kept : (configMachine env).AllSteps
      (fun state label => ¬ losesPush state label) (firstBoot env) labels) :
    (configMachine env).AllSteps (Originates env (LearnedUnder env labels))
      (firstBoot env) labels := by
  refine (Machine.allSteps_reached (Machine.exec_nil _)).mono ?_
  rintro before label ⟨done, rest, split, reached⟩
  rintro id now after source generation definition current content validator
    style rfl stepped found installed
  have split : labels = done ++ .learnCommit id now :: rest := split
  have reads := (coherent_within split reached kept).reads
  obtain ⟨_, phase, read, same, known, lookup⟩ :=
    commit_reads reads stepped installed
  cases found.symm.trans same
  cases known
  exact ⟨done, rest, id, now, before, after, generation, current, validator,
    style, split, reached, stepped, found, installed, lookup⟩

/-- If no push is lost, and no two definitions of one source in the catalogs
of the run have the same signature, then every served entry was learned under
the definition which its source has now, every record names the definition
under which it was learned, and a learn commits only under the catalog under
which it began. -/
theorem style_state_coherent
    (run : (configMachine env).exec (firstBoot env) labels = some final)
    (kept : (configMachine env).AllSteps
      (fun state label => ¬ losesPush state label) (firstBoot env) labels)
    (distinct : ∀ done rest earlier source left right signature,
      labels = done ++ rest →
      (configMachine env).exec (firstBoot env) done = some earlier →
      earlier.sources.lookup source = some left →
      final.sources.lookup source = some right →
      env.sourceSignature left = some signature →
      env.sourceSignature right = some signature → left = right) :
    (∀ style ∈ final.styleState.rows,
      style.configGeneration = final.configGeneration →
      Even final.configGeneration →
      ∃ definition, final.sources.lookup style.source = some definition ∧
        LearnedUnder env labels style.source definition style.content) ∧
    (∀ row ∈ final.learnedStyles.rows, ∃ definition,
      LearnedUnder env labels row.source definition row.state.content ∧
        env.sourceSignature definition = some row.sourceSignature) ∧
    ∀ done rest id now before after source generation style,
      labels = done ++ .learnCommit id now :: rest →
      (configMachine env).exec (firstBoot env) done = some before →
      (configMachine env).step before (.learnCommit id now) = some after →
      after.tasks id = some (.learn source generation (.persisting style)) →
      generation = before.configGeneration ∧ ∃ phase definition,
        before.tasks id = some (.learn source generation phase) ∧
        phase.definition = some definition ∧
        before.sources.lookup source = some definition := by
  have coherent := coherent_exec run kept (originates_learnedUnder kept)
  refine ⟨?_, coherent.provenance.rows, ?_⟩
  · intro style member valid even
    obtain ⟨learned, current, learns, found, same⟩ :=
      coherent.provenance.entries style member
        (by rw [valid, Nat.even_iff.mp even, Nat.add_zero])
    refine ⟨current, found, ?_⟩
    rcases same with rfl | ⟨signature, left, right⟩
    · exact learns
    · obtain ⟨done, rest, id, now, before, after, generation, entry,
        validator, installed, split, reached, stepped, task, moved,
        lookup⟩ := learns
      obtain rfl := distinct done _ before style.source learned current
        signature split reached lookup found left right
      exact ⟨done, rest, id, now, before, after, generation, entry,
        validator, installed, split, reached, stepped, task, moved, lookup⟩
  · intro done rest id now before after source generation style split
      reached stepped installed
    exact commit_reads (coherent_within split reached kept).reads stepped
      installed

end Runs

/-- A deployment which signs the one style of the run below. -/
def signedEnvironment : Environment Nat :=
  { sampleEnvironment with
    sourceSignature := fun source =>
      if source = libertySource then some "liberty" else none }

/-- A style is learned, and its record comes back with the next push. -/
def repushedStyle : List (Label Nat) :=
  acceptedPush 1 { sampleBody with sources := [libertySource] } ++
    acceptedLearn 2 "liberty" 100 7 ++
    acceptedPush 3 { sampleBody with sources := [libertySource] }

theorem style_state_coherent_repushedStyle :
    ∃ final style, (configMachine signedEnvironment).exec
        (firstBoot signedEnvironment) repushedStyle = some final ∧
      style ∈ final.styleState.rows ∧
      ∃ definition, final.sources.lookup style.source = some definition ∧
        LearnedUnder signedEnvironment repushedStyle style.source definition
          style.content := by
  have kept : (configMachine signedEnvironment).AllSteps
      (fun state label => ¬ losesPush state label)
      (firstBoot signedEnvironment) repushedStyle := by
    apply Machine.allSteps_of_labels
    simp [repushedStyle, acceptedPush, acceptedLearn, losesPush]
  have only : ∀ {source signature},
      signedEnvironment.sourceSignature source = some signature →
        source = libertySource := by
    intro source signature signed
    by_contra other
    simp [signedEnvironment, other] at signed
  refine ⟨_, _, rfl, List.mem_cons_self, ?_⟩
  refine (style_state_coherent rfl kept ?_).1 _ List.mem_cons_self rfl
    (by decide)
  intro done rest earlier source left right signature _ _ _ _ first second
  rw [only first, only second]

end ChartLocker.Config
