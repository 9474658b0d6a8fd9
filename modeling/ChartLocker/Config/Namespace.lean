import ChartLocker.Config.Generations

/-!
# The durable namespaces of learned styles

A learn which finds no entry of its generation takes the generation as the
namespace of the style; every other learn and every rehydration keeps the
namespace of an earlier learn under the same signature.  The generation starts
again at every boot while the namespaces persist, so that two boots can take
the same namespace for one source.

`learned` is the history of the learns.  The invariant traces every entry,
every persisted row and every value on its way between the two to a record of
the history, and every record to one which took its namespace.
-/

namespace ChartLocker.Config

open Library Cache Catalog

variable {Document : Type}

/-- Some learn of the source under the signature used the namespace. -/
def Known (learned : List LearnRecord) (source : String)
    (signature : Option String) (generation : Nat) : Prop :=
  ∃ record ∈ learned, record.source = source ∧
    record.signature = signature ∧ record.generation = generation

theorem Known.append {learned : List LearnRecord} {source : String}
    {signature : Option String} {generation : Nat}
    (known : Known learned source signature generation)
    (later : List LearnRecord) :
    Known (learned ++ later) source signature generation := by
  obtain ⟨record, member, facts⟩ := known
  exact ⟨record, List.mem_append_left later member, facts⟩

/-- A learn without an entry of its generation commits at the generation at
which another boot has committed such a learn of the source under another
signature. -/
def TakesUsedNamespace (env : Environment Document)
    (state : AppState Document) : Label Document → Prop
  | .learnCommit id _ =>
      ∃ source definition content validator,
        state.tasks id = some (.learn source state.configGeneration
          (.committing definition none content validator)) ∧
        ¬ ((state.styleState.lookup source).isNone ∧
          maxLearnedStyleEntries ≤ state.styleState.rows.length) ∧
        ∃ record ∈ state.learned, record.boot ≠ state.boot ∧
          record.renewed = true ∧ record.source = source ∧
          record.generation = state.configGeneration ∧
          record.signature ≠ env.sourceSignature definition
  | _ => False

/-! ## The history -/

/-- The history on its own: its boots, and the origin of its namespaces. -/
structure History (learned : List LearnRecord) (boot : Nat) : Prop where
  boots : ∀ record ∈ learned, record.boot ≤ boot
  origin : ∀ record ∈ learned, ∃ first ∈ learned, first.renewed = true ∧
    first.source = record.source ∧ first.signature = record.signature ∧
    first.generation = record.generation
  distinct : ∀ left ∈ learned, ∀ right ∈ learned,
    left.renewed = true → right.renewed = true →
    left.source = right.source → left.generation = right.generation →
    left.signature = right.signature

theorem History.signature_eq {learned : List LearnRecord} {boot : Nat}
    (history : History learned boot) {left right : LearnRecord}
    (leftMember : left ∈ learned) (rightMember : right ∈ learned)
    (source : left.source = right.source)
    (generation : left.generation = right.generation) :
    left.signature = right.signature := by
  obtain ⟨first, firstMember, firstRenewed, firstSource, firstSignature,
    firstGeneration⟩ := history.origin left leftMember
  obtain ⟨second, secondMember, secondRenewed, secondSource,
    secondSignature, secondGeneration⟩ := history.origin right rightMember
  rw [← firstSignature, ← secondSignature]
  apply history.distinct first firstMember second secondMember firstRenewed
    secondRenewed
  · rw [firstSource, secondSource, source]
  · rw [firstGeneration, secondGeneration, generation]

/-- A learn which keeps a known namespace. -/
theorem History.keep {learned : List LearnRecord} {boot : Nat}
    (history : History learned boot) {record : LearnRecord}
    (booted : record.boot = boot) (kept : record.renewed = false)
    (known : Known learned record.source record.signature
      record.generation) :
    History (learned ++ [record]) boot := by
  refine ⟨?_, ?_, ?_⟩
  · intro other member
    rcases List.mem_append.mp member with old | new
    · exact history.boots other old
    · rw [List.mem_singleton.mp new, booted]
  · intro other member
    have old : ∃ earlier ∈ learned, earlier.source = other.source ∧
        earlier.signature = other.signature ∧
        earlier.generation = other.generation := by
      rcases List.mem_append.mp member with old | new
      · exact ⟨other, old, rfl, rfl, rfl⟩
      · rw [List.mem_singleton.mp new]
        exact known
    obtain ⟨earlier, earlierMember, source, signature, generation⟩ := old
    obtain ⟨first, firstMember, renewed, firstSource, firstSignature,
      firstGeneration⟩ := history.origin earlier earlierMember
    exact ⟨first, List.mem_append_left _ firstMember, renewed,
      firstSource.trans source, firstSignature.trans signature,
      firstGeneration.trans generation⟩
  · intro left leftMember right rightMember leftRenewed rightRenewed
    have old : ∀ other ∈ learned ++ [record], other.renewed = true →
        other ∈ learned := by
      intro other member renewed
      rcases List.mem_append.mp member with old | new
      · exact old
      · rw [List.mem_singleton.mp new, kept] at renewed
        cases renewed
    exact history.distinct left (old left leftMember leftRenewed) right
      (old right rightMember rightRenewed) leftRenewed rightRenewed

/-- A learn which takes a namespace. -/
theorem History.renew {learned : List LearnRecord} {boot : Nat}
    (history : History learned boot) {record : LearnRecord}
    (booted : record.boot = boot) (renewed : record.renewed = true)
    (agrees : ∀ other ∈ learned, other.renewed = true →
      other.source = record.source →
      other.generation = record.generation →
      other.signature = record.signature) :
    History (learned ++ [record]) boot := by
  refine ⟨?_, ?_, ?_⟩
  · intro other member
    rcases List.mem_append.mp member with old | new
    · exact history.boots other old
    · rw [List.mem_singleton.mp new, booted]
  · intro other member
    rcases List.mem_append.mp member with old | new
    · obtain ⟨first, firstMember, facts⟩ := history.origin other old
      exact ⟨first, List.mem_append_left _ firstMember, facts⟩
    · exact ⟨other, member, by rw [List.mem_singleton.mp new, renewed], rfl,
        rfl, rfl⟩
  · intro left leftMember right rightMember leftRenewed rightRenewed source
      generation
    rcases List.mem_append.mp leftMember with leftOld | leftNew <;>
      rcases List.mem_append.mp rightMember with rightOld | rightNew
    · exact history.distinct left leftOld right rightOld leftRenewed
        rightRenewed source generation
    · rw [List.mem_singleton.mp rightNew] at source generation ⊢
      exact agrees left leftOld leftRenewed source generation
    · rw [List.mem_singleton.mp leftNew] at source generation ⊢
      exact (agrees right rightOld rightRenewed source.symm
        generation.symm).symm
    · rw [List.mem_singleton.mp leftNew, List.mem_singleton.mp rightNew]

/-! ## The invariant -/

section Invariant

variable (env : Environment Document) (state : AppState Document)

/-- The namespace of an entry was learned under the current definition of its
source. -/
def Current (style : StyleState Document) : Prop :=
  ∃ definition, state.sources.lookup style.source = some definition ∧
    Known state.learned style.source (env.sourceSignature definition)
      style.generation

/-- What a learn has read, as long as its generation lasts. -/
def ReadsCatalog (source : String) (generation : Nat)
    (definition : ChartSource) : Prop :=
  generation = state.configGeneration →
    state.sources.lookup source = some definition

def ReadsEntry (source : String) (definition : ChartSource)
    (current : Option (StyleState Document)) : Prop :=
  ∀ style, current = some style →
    Known state.learned source (env.sourceSignature definition)
      style.generation

def LearnPhase.traced (id : Nat) (source : String) (generation : Nat) :
    LearnPhase Document → Prop
  | .reading definition => ReadsCatalog state source generation definition
  | .fetching definition current =>
      ReadsCatalog state source generation definition ∧
        (generation = state.configGeneration →
          ReadsEntry env state source definition current)
  | .refreshing definition => ReadsCatalog state source generation definition
  | .committing definition current _ _ =>
      ReadsCatalog state source generation definition ∧
        (generation = state.configGeneration →
          ReadsEntry env state source definition current)
  | .persisting style =>
      state.configUpdate = some id ∧ style.source = source ∧
        Current env state style
  | _ => True

/-- The rows of a reconciliation belong to the catalog which was read. -/
def Job.matchesCatalog (catalog : List ChartSource) : Job Document → Prop
  | .pending (.reconcile signatures) =>
      ∀ entry ∈ signatures, ∃ definition ∈ catalog,
        definition.id = entry.1 ∧
          env.sourceSignature definition = some entry.2
  | .finished (.retained rows) =>
      ∀ row ∈ rows, ∃ definition ∈ catalog,
        definition.id = row.source ∧
          env.sourceSignature definition = some row.sourceSignature
  | _ => True

def Task.traced (id : Nat) : Task Document → Prop
  | .config _ (.reconciling _ catalog) =>
      (∀ definition ∈ catalog,
        state.sources.lookup definition.id = some definition) ∧
      ∀ job, state.jobs id = some job → job.matchesCatalog env catalog
  | .config _ (.deletingInvalid restored) =>
      ∀ style ∈ restored, Current env state style
  | .config _ (.installing restored) =>
      ∀ style ∈ restored, Current env state style
  | .learn source generation phase =>
      generation % 2 = 0 ∧ generation ≤ state.configGeneration ∧
        phase.traced env state id source generation
  | _ => True

def Job.traced : Job Document → Prop
  | .pending (.store row) =>
      Known state.learned row.source (some row.sourceSignature)
        row.state.generation
  | .finished (.retained rows) =>
      ∀ row ∈ rows, Known state.learned row.source
        (some row.sourceSignature) row.state.generation
  | _ => True

/-- A push which has installed the rehydrated entries. -/
def Task.publishing : Task Document → Bool
  | .config _ .publishing => true
  | _ => false

def AppState.publishing (id : Nat) : Prop :=
  ∃ task, state.tasks id = some task ∧ task.publishing = true

structure Traced : Prop where
  history : History state.learned state.boot
  rows : ∀ row ∈ state.learnedStyles.rows,
    Known state.learned row.source (some row.sourceSignature)
      row.state.generation
  jobs : ∀ id job, state.jobs id = some job → job.traced state
  tasks : ∀ id task, state.tasks id = some task → task.traced env state id
  settled : (∀ id, ¬ state.publishing id) →
    ∀ style ∈ state.styleState.rows,
      style.configGeneration ≤ state.configGeneration
  /-- The entries of the generation which is current or being published. -/
  entries : ∀ style ∈ state.styleState.rows,
    style.configGeneration =
      state.configGeneration + state.configGeneration % 2 →
    Current env state style
  renewed : ∀ record ∈ state.learned, record.renewed = true →
    record.boot = state.boot →
    record.generation % 2 = 0 ∧
      record.generation ≤ state.configGeneration ∧
      (record.generation = state.configGeneration →
        ∃ definition, state.sources.lookup record.source = some definition ∧
          record.signature = env.sourceSignature definition)

end Invariant

/-! ## Steps within a generation -/

section Within

variable {env : Environment Document} {state next : AppState Document}
  {id : Nat}

/-- The step leaves the catalog, its generation and the other tasks alone. -/
structure Extends (state next : AppState Document) (id : Nat) : Prop where
  sources : next.sources = state.sources
  generation : next.configGeneration = state.configGeneration
  learned : ∃ later, next.learned = state.learned ++ later
  tasks : ∀ other, other ≠ id → next.tasks other = state.tasks other
  jobs : ∀ other, other ≠ id → next.jobs other = state.jobs other
  lock : ∀ other, other ≠ id → state.configUpdate = some other →
    next.configUpdate = some other

theorem Extends.known (grows : Extends state next id) {source : String}
    {signature : Option String} {generation : Nat}
    (known : Known state.learned source signature generation) :
    Known next.learned source signature generation := by
  obtain ⟨later, learned⟩ := grows.learned
  rw [learned]
  exact known.append later

theorem Extends.current (grows : Extends state next id)
    {style : StyleState Document} (current : Current env state style) :
    Current env next style := by
  obtain ⟨definition, found, known⟩ := current
  exact ⟨definition, grows.sources ▸ found, grows.known known⟩

theorem Extends.readsCatalog (grows : Extends state next id)
    {source : String} {generation : Nat} {definition : ChartSource}
    (reads : ReadsCatalog state source generation definition) :
    ReadsCatalog next source generation definition := by
  intro same
  rw [grows.sources]
  exact reads (same.trans grows.generation)

theorem Extends.readsEntry (grows : Extends state next id)
    {source : String} {definition : ChartSource}
    {current : Option (StyleState Document)}
    (reads : ReadsEntry env state source definition current) :
    ReadsEntry env next source definition current :=
  fun style found => grows.known (reads style found)

theorem Extends.phase (grows : Extends state next id) {other : Nat}
    (lock : state.configUpdate = some other →
      next.configUpdate = some other)
    {source : String} {generation : Nat} {phase : LearnPhase Document}
    (traced : phase.traced env state other source generation) :
    phase.traced env next other source generation := by
  cases phase with
  | resolving => trivial
  | reading definition => exact grows.readsCatalog traced
  | fetching definition current =>
      exact ⟨grows.readsCatalog traced.1, fun same =>
        grows.readsEntry (traced.2 (same.trans grows.generation))⟩
  | refreshing definition => exact grows.readsCatalog traced
  | committing definition current content validator =>
      exact ⟨grows.readsCatalog traced.1, fun same =>
        grows.readsEntry (traced.2 (same.trans grows.generation))⟩
  | persisting style =>
      exact ⟨lock traced.1, traced.2.1,
        grows.current traced.2.2⟩
  | storing => trivial

theorem Extends.task (grows : Extends state next id) {other : Nat}
    (lock : state.configUpdate = some other →
      next.configUpdate = some other)
    (jobs : ∀ catalog,
      (∀ job, state.jobs other = some job →
        job.matchesCatalog env catalog) →
      ∀ job, next.jobs other = some job → job.matchesCatalog env catalog)
    {task : Task Document} (traced : task.traced env state other) :
    task.traced env next other := by
  cases task with
  | holder => trivial
  | learn source generation phase =>
      obtain ⟨even, le, before⟩ := traced
      exact ⟨even, grows.generation ▸ le, grows.phase lock before⟩
  | config body phase =>
      cases phase with
      | reconciling published catalog =>
          obtain ⟨found, matching⟩ := traced
          refine ⟨fun definition member => ?_, jobs catalog matching⟩
          rw [grows.sources]
          exact found definition member
      | deletingInvalid restored =>
          exact fun style member => grows.current (traced style member)
      | installing restored =>
          exact fun style member => grows.current (traced style member)
      | _ => trivial

theorem Extends.job (grows : Extends state next id) {job : Job Document}
    (traced : job.traced state) : job.traced next := by
  unfold Job.traced at traced ⊢
  split at traced
  · exact grows.known traced
  · exact fun row member => grows.known (traced row member)
  · trivial

/-- A step which extends the state keeps the invariant if it keeps it for its
own task, its own job and the rows which it writes. -/
theorem Extends.traced (grows : Extends state next id)
    (traced : Traced env state)
    (history : History next.learned next.boot)
    (rows : ∀ row ∈ next.learnedStyles.rows,
      Known next.learned row.source (some row.sourceSignature)
        row.state.generation)
    (job : ∀ own, next.jobs id = some own → own.traced next)
    (task : ∀ own, next.tasks id = some own → own.traced env next id)
    (settled : (∀ other, ¬ next.publishing other) →
      ∀ style ∈ next.styleState.rows,
        style.configGeneration ≤ next.configGeneration)
    (entries : ∀ style ∈ next.styleState.rows,
      style.configGeneration =
        next.configGeneration + next.configGeneration % 2 →
      Current env next style)
    (renewed : ∀ record ∈ next.learned, record.renewed = true →
      record.boot = next.boot →
      record.generation % 2 = 0 ∧
        record.generation ≤ next.configGeneration ∧
        (record.generation = next.configGeneration →
          ∃ definition, next.sources.lookup record.source =
            some definition ∧
            record.signature = env.sourceSignature definition)) :
    Traced env next := by
  refine ⟨history, rows, ?_, ?_, settled, entries, renewed⟩
  · intro other own running
    by_cases same : other = id
    · exact job own (same ▸ running)
    · rw [grows.jobs other same] at running
      exact grows.job (traced.jobs other own running)
  · intro other own running
    by_cases same : other = id
    · rw [same] at running ⊢
      exact task own running
    · rw [grows.tasks other same] at running
      refine grows.task (grows.lock other same) ?_
        (traced.tasks other own running)
      rw [grows.jobs other same]
      exact fun _ matching => matching

/-- The step leaves the entries and the history alone as well. -/
structure Quiet (state next : AppState Document) (id : Nat) : Prop
    extends Extends state next id where
  styleState : next.styleState = state.styleState
  boot : next.boot = state.boot
  quiet : next.learned = state.learned
  publishes : state.publishing id → next.publishing id

theorem Quiet.traced (quiet : Quiet state next id)
    (traced : Traced env state)
    (rows : ∀ row ∈ next.learnedStyles.rows,
      Known state.learned row.source (some row.sourceSignature)
        row.state.generation)
    (job : ∀ own, next.jobs id = some own → own.traced next)
    (task : ∀ own, next.tasks id = some own → own.traced env next id) :
    Traced env next := by
  refine quiet.toExtends.traced traced ?_ ?_ job task ?_ ?_ ?_
  · rw [quiet.quiet, quiet.boot]
    exact traced.history
  · rw [quiet.quiet]
    exact rows
  · intro unpublished
    rw [quiet.styleState, quiet.generation]
    refine traced.settled fun other published => ?_
    by_cases same : other = id
    · exact unpublished id (quiet.publishes (same ▸ published))
    · obtain ⟨task, running, publishing⟩ := published
      exact unpublished other
        ⟨task, (quiet.tasks other same).trans running, publishing⟩
  · rw [quiet.styleState, quiet.generation]
    exact fun style member current =>
      quiet.toExtends.current (traced.entries style member current)
  · rw [quiet.quiet, quiet.boot, quiet.generation, quiet.sources]
    exact traced.renewed

theorem quiet_of_update {tasks : Nat → Option (Task Document)}
    {jobs : Nat → Option (Job Document)} {lock : Option Nat}
    (unpublished : ¬ state.publishing id)
    (moved : ∀ other, other ≠ id → tasks other = state.tasks other)
    (worked : ∀ other, other ≠ id → jobs other = state.jobs other)
    (kept : ∀ other, other ≠ id → state.configUpdate = some other →
      lock = some other) :
    Quiet state { state with
      tasks := tasks, jobs := jobs, configUpdate := lock } id where
  sources := rfl
  generation := rfl
  learned := ⟨[], (List.append_nil _).symm⟩
  tasks := moved
  jobs := worked
  lock := kept
  styleState := rfl
  boot := rfl
  quiet := rfl
  publishes := fun published => absurd published unpublished

theorem Traced.setTask (traced : Traced env state)
    {task : Option (Task Document)} {job : Option (Job Document)}
    {lock : Option Nat} (unpublished : ¬ state.publishing id)
    (kept : ∀ other, other ≠ id → state.configUpdate = some other →
      lock = some other)
    (worked : ∀ own, job = some own → own.traced state)
    (moved : ∀ own, task = some own → own.traced env
      { (state.setJob id job).setTask id task with configUpdate := lock }
        id) :
    Traced env
      { (state.setJob id job).setTask id task with configUpdate := lock } := by
  have quiet := quiet_of_update unpublished
    (fun other different => Function.update_of_ne different task state.tasks)
    (fun other different => Function.update_of_ne different job state.jobs)
    kept
  refine quiet.traced traced traced.rows ?_ ?_
  · intro own running
    exact quiet.toExtends.job (worked own
      ((Function.update_self id job state.jobs).symm.trans running))
  · intro own running
    exact moved own
      ((Function.update_self id task state.tasks).symm.trans running)

theorem setJob_self : state.setJob id (state.jobs id) = state := by
  simp only [AppState.setJob, Function.update_eq_self]

theorem Traced.finishJob (traced : Traced env state)
    (unpublished : ¬ state.publishing id) {job : Option (Job Document)}
    (worked : ∀ own, job = some own → own.traced state) :
    Traced env ((state.setJob id job).finish id) := by
  refine traced.setTask unpublished ?_ worked ?_
  · intro other different held
    change (if state.configUpdate = some id then none
      else state.configUpdate) = some other
    rw [held, if_neg fun same => different (Option.some.inj same)]
  · rintro own ⟨⟩

theorem Traced.finish (traced : Traced env state)
    (unpublished : ¬ state.publishing id) :
    Traced env (state.finish id) := by
  have finished := traced.finishJob unpublished (traced.jobs id)
  rwa [setJob_self] at finished

theorem Traced.toLearnPhaseJob (traced : Traced env state)
    {source : String} {generation : Nat} {phase : LearnPhase Document}
    (unpublished : ¬ state.publishing id) (even : generation % 2 = 0)
    (le : generation ≤ state.configGeneration)
    (before : phase.traced env state id source generation)
    {job : Option (Job Document)}
    (worked : ∀ own, job = some own → own.traced state) :
    Traced env ((state.setJob id job).toLearnPhase id source generation
      phase) := by
  refine traced.setTask unpublished (fun _ _ held => held) worked ?_
  rintro own ⟨⟩
  refine ⟨even, le, ?_⟩
  cases phase <;> exact before

theorem Traced.toLearnPhase (traced : Traced env state) {source : String}
    {generation : Nat} {phase : LearnPhase Document}
    (unpublished : ¬ state.publishing id) (even : generation % 2 = 0)
    (le : generation ≤ state.configGeneration)
    (before : phase.traced env state id source generation) :
    Traced env (state.toLearnPhase id source generation phase) := by
  have moved := traced.toLearnPhaseJob unpublished even le before
    (traced.jobs id)
  rwa [setJob_self] at moved

theorem Traced.toPhase (traced : Traced env state) {body : ConfigBody}
    {phase : ConfigPhase Document} {job : Option (Job Document)}
    (unpublished : ¬ state.publishing id)
    (worked : ∀ own, job = some own → own.traced state)
    (moved : Task.traced env ((state.setJob id job).toPhase id body phase) id
      (.config body phase)) :
    Traced env ((state.setJob id job).toPhase id body phase) := by
  refine traced.setTask unpublished (fun _ _ held => held) worked ?_
  rintro own ⟨⟩
  exact moved

/-- A task which is not about to publish. -/
theorem not_publishing {task : Task Document}
    (running : state.tasks id = some task)
    (other : task.publishing = false) : ¬ state.publishing id := by
  rintro ⟨published, same, publishing⟩
  cases running.symm.trans same
  cases other.symm.trans publishing

theorem not_publishing_of_unused (unused : state.tasks id = none) :
    ¬ state.publishing id := by
  rintro ⟨published, running, _⟩
  cases unused.symm.trans running

/-- A push which is about to publish replaces the configuration. -/
theorem replacing_of_publishing (published : state.publishing id) :
    state.replacing id = true := by
  obtain ⟨task, running, publishing⟩ := published
  rw [replacing_of_task running]
  unfold Task.publishing at publishing
  split at publishing
  · rfl
  · cases publishing

end Within

/-! ## Learning -/

section Learning

variable {env : Environment Document} {state next : AppState Document}
  {id : Nat}

theorem learnRequest_traced (traced : Traced env state) {source : String}
    {now : Int}
    (stepped : learnRequest env state id source now = some next) :
    Traced env next := by
  simp only [learnRequest] at stepped
  split at stepped
  · next enabled =>
    cases stepped
    exact traced.toLearnPhase
      (not_publishing_of_unused (by simpa using enabled.2.2.1)) enabled.1
      le_rfl trivial
  · cases stepped

theorem learnResolve_traced (traced : Traced env state)
    (stepped : learnResolve env state id = some next) :
    Traced env next := by
  simp only [learnResolve] at stepped
  split at stepped
  · next source generation running =>
    have unpublished := not_publishing running rfl
    obtain ⟨even, le, _⟩ := traced.tasks id _ running
    split at stepped
    · next definition found =>
      split at stepped
      · split at stepped
        · cases stepped
          exact traced.toLearnPhase unpublished even le fun _ => found
        · cases stepped
          exact traced.finish unpublished
      · cases stepped
        exact traced.finish unpublished
    · cases stepped
      exact traced.finish unpublished
  · cases stepped

/-- An entry of an even generation which is current belongs to the definition
which a learn of this generation has read. -/
theorem readsEntry_currentStyle (traced : Traced env state) {source : String}
    {definition : ChartSource} (even : state.configGeneration % 2 = 0)
    (reads : state.sources.lookup source = some definition) :
    ReadsEntry env state source definition
      (state.currentStyle source state.configGeneration) := by
  intro style found
  obtain ⟨stored, kept⟩ := Option.filter_eq_some_iff.mp found
  obtain ⟨member, rfl⟩ := KeyedTable.lookup_eq_some.mp stored
  obtain ⟨other, defined, known⟩ := traced.entries style member
    (by rw [even]; simpa using kept)
  cases reads.symm.trans defined
  exact known

theorem learnExisting_traced (traced : Traced env state)
    (stepped : learnExisting state id = some next) : Traced env next := by
  simp only [learnExisting] at stepped
  split at stepped
  · next source generation definition running =>
    cases stepped
    obtain ⟨even, le, reads⟩ := traced.tasks id _ running
    refine traced.toLearnPhase (not_publishing running rfl) even le
      ⟨reads, ?_⟩
    intro same
    rw [same] at even ⊢
    exact readsEntry_currentStyle traced even (reads same)
  · cases stepped

theorem learnAnswer_traced (traced : Traced env state)
    {answer : StyleAnswer Document}
    (stepped : learnAnswer env state id answer = some next) :
    Traced env next := by
  simp only [learnAnswer] at stepped
  split at stepped
  · next source generation definition current running =>
    have unpublished := not_publishing running rfl
    obtain ⟨even, le, before⟩ := traced.tasks id _ running
    split at stepped
    · cases stepped
      exact traced.finish unpublished
    · cases stepped
      exact traced.toLearnPhase unpublished even le before.1
    · split at stepped
      · cases stepped
        exact traced.toLearnPhase unpublished even le before
      · cases stepped
        exact traced.finish unpublished
  · cases stepped

theorem learnPersist_traced (traced : Traced env state)
    (stepped : learnPersist env state id = some next) :
    Traced env next := by
  simp only [learnPersist] at stepped
  split at stepped
  · next source generation style running =>
    have unpublished := not_publishing running rfl
    obtain ⟨even, le, held, named, definition, found, known⟩ :=
      traced.tasks id _ running
    split at stepped
    · next signature signed =>
      split at stepped
      · cases stepped
        have phase : LearnPhase.traced env state id source generation
            (.storing : LearnPhase Document) := trivial
        refine traced.toLearnPhaseJob unpublished even le phase ?_
        rintro own ⟨⟩
        rw [named] at found known
        simp only [found, Option.bind_some] at signed
        rw [signed] at known
        exact known
      · cases stepped
        exact traced.finish unpublished
    · cases stepped
      exact traced.finish unpublished
  · cases stepped

theorem learnFinish_traced (traced : Traced env state)
    (stepped : learnFinish state id = some next) : Traced env next := by
  simp only [learnFinish] at stepped
  split at stepped
  · next running _ =>
    cases stepped
    exact traced.finishJob (not_publishing running rfl) fun own worked => by
      cases worked
  · cases stepped

theorem installStyle_extends {style : StyleState Document}
    {generation : Nat} {definition : ChartSource} {renewed : Bool}
    (free : state.configUpdate = none) :
    Extends state
      (installStyle env state id style generation definition renewed) id where
  sources := rfl
  generation := rfl
  learned := ⟨_, rfl⟩
  tasks := fun _ different => Function.update_of_ne different _ _
  jobs := fun _ _ => rfl
  lock := by
    intro other _ held
    cases free.symm.trans held

/-- An entry which is installed under the lock, with the history which its
record leads to. -/
theorem installStyle_traced (traced : Traced env state)
    {style : StyleState Document} {definition : ChartSource} {renewed : Bool}
    (unpublished : ¬ state.publishing id)
    (free : state.configUpdate = none)
    (even : state.configGeneration % 2 = 0)
    (current : style.configGeneration = state.configGeneration)
    (found : state.sources.lookup style.source = some definition)
    (history : History (state.learned ++
      [⟨state.boot, style.source, env.sourceSignature definition,
        style.generation, renewed⟩]) state.boot)
    (taken : renewed = true → style.generation = state.configGeneration) :
    Traced env (installStyle env state id style state.configGeneration
      definition renewed) := by
  have grows := @installStyle_extends Document env state id style
    state.configGeneration definition renewed free
  have installed : Current env (installStyle env state id style
      state.configGeneration definition renewed) style :=
    ⟨definition, found, _, List.mem_append_right _ List.mem_cons_self,
      rfl, rfl, rfl⟩
  refine grows.traced traced history ?_ ?_ ?_ ?_ ?_ ?_
  · exact fun row member => grows.known (traced.rows row member)
  · exact fun own running => grows.job (traced.jobs id own running)
  · intro own running
    cases (Function.update_self id _ state.tasks).symm.trans running
    exact ⟨even, le_rfl, rfl, rfl, installed⟩
  · intro quiet entry member
    rcases KeyedTable.mem_insertOrReplace.mp member with rfl | ⟨old, _⟩
    · exact current.le
    · refine traced.settled (fun other published => ?_) entry old
      by_cases same : other = id
      · exact unpublished (same ▸ published)
      · obtain ⟨task, running, publishing⟩ := published
        exact quiet other
          ⟨task, (grows.tasks other same).trans running, publishing⟩
  · intro entry member valid
    rcases KeyedTable.mem_insertOrReplace.mp member with rfl | ⟨old, _⟩
    · exact installed
    · exact grows.current (traced.entries entry old valid)
  · intro record member chosen booted
    rcases List.mem_append.mp member with old | new
    · exact traced.renewed record old chosen booted
    · rw [List.mem_singleton] at new
      subst new
      have generation := taken chosen
      exact ⟨generation ▸ even, generation.le, fun _ =>
        ⟨definition, found, rfl⟩⟩

/-- A learn which finds no entry of its generation takes a namespace which
only the definition of the current catalog has taken in this boot. -/
theorem history_renew (traced : Traced env state) {source : String}
    {definition : ChartSource}
    (found : state.sources.lookup source = some definition)
    (fresh : ∀ record ∈ state.learned, record.boot ≠ state.boot →
      record.renewed = true → record.source = source →
      record.generation = state.configGeneration →
      record.signature = env.sourceSignature definition) :
    History (state.learned ++ [⟨state.boot, source,
      env.sourceSignature definition, state.configGeneration, true⟩])
      state.boot := by
  refine traced.history.renew rfl rfl ?_
  intro other member chosen sameSource sameGeneration
  by_cases booted : other.boot = state.boot
  · obtain ⟨_, _, defined⟩ := traced.renewed other member chosen booted
    obtain ⟨known, stored, signature⟩ := defined sameGeneration
    rw [sameSource] at stored
    cases found.symm.trans stored
    exact signature
  · exact fresh other member booted chosen sameSource sameGeneration

theorem learnCommit_traced (traced : Traced env state) {now : Int}
    (fresh : ¬ TakesUsedNamespace env state (.learnCommit id now))
    (stepped : learnCommit env state id now = some next) :
    Traced env next := by
  simp only [learnCommit] at stepped
  split at stepped
  · next source generation definition running free =>
    have unpublished := not_publishing running rfl
    obtain ⟨even, le, reads⟩ := traced.tasks id _ running
    split at stepped
    · next same =>
      subst same
      split at stepped
      · next existing entry =>
        cases stepped
        have found := reads rfl
        have known := readsEntry_currentStyle traced even found existing entry
        have valid : existing.configGeneration = state.configGeneration := by
          simpa using (Option.filter_eq_some_iff.mp entry).2
        exact installStyle_traced traced unpublished free even valid found
          (traced.history.keep rfl rfl known) fun renewed => by
            cases renewed
      · cases stepped
        exact traced.finish unpublished
    · cases stepped
      exact traced.finish unpublished
  · next source generation definition current content validator running
      free =>
    have unpublished := not_publishing running rfl
    obtain ⟨even, le, reads, entry⟩ := traced.tasks id _ running
    split at stepped
    · next same =>
      subst same
      split at stepped
      · cases stepped
        exact traced.finish unpublished
      · next room =>
        cases stepped
        have found := reads rfl
        cases current with
        | none =>
            refine installStyle_traced traced unpublished free even rfl found
              (history_renew traced found ?_) fun _ => rfl
            intro record member booted chosen named numbered
            by_contra different
            exact fresh ⟨source, definition, content, validator, running,
              room, record, member, booted, chosen, named, numbered,
              different⟩
        | some existing =>
            exact installStyle_traced traced unpublished free even rfl found
              (traced.history.keep rfl rfl (entry rfl existing rfl))
              fun renewed => by cases renewed
    · cases stepped
      exact traced.finish unpublished
  · cases stepped

end Learning

/-! ## Jobs -/

section Jobs

variable {env : Environment Document} {state next : AppState Document}
  {id : Nat}

theorem mem_reconcileLearnedStyles {signatures : List (String × String)}
    {row : StoredLearnedStyle Document}
    (member : row ∈ reconcileLearnedStyles env state signatures) :
    row ∈ state.learnedStyles.rows ∧
      (row.source, row.sourceSignature) ∈ signatures := by
  obtain ⟨entry, listed, kept⟩ := List.mem_filterMap.mp member
  obtain ⟨found, conditions⟩ := Option.filter_eq_some_iff.mp kept
  obtain ⟨stored, named⟩ := KeyedTable.lookup_eq_some.mp found
  have signed : row.sourceSignature = entry.2 := by
    simpa using (Bool.and_eq_true_iff.mp conditions).1
  exact ⟨stored, by rw [named, signed]; exact listed⟩

/-- Every row which a job leaves was there before or is the row of a learn. -/
theorem perform_rows {work : Work Document} {outcome : Outcome}
    {row : StoredLearnedStyle Document}
    (member : row ∈ (perform env state work outcome).1.learnedStyles.rows) :
    row ∈ state.learnedStyles.rows ∨ work = .store row := by
  cases work with
  | enforceCap cap =>
      rw [show (perform env state (.enforceCap cap) outcome).1.learnedStyles =
        state.learnedStyles by
          simp only [perform]
          split
          · rfl
          · split <;> rfl] at member
      exact .inl member
  | reconcile signatures =>
      cases outcome with
      | ok =>
          rcases KeyedTable.mem_of_mem_foldl_insertOrReplace member with
            old | kept
          · cases old
          · exact .inl (mem_reconcileLearnedStyles kept).1
      | failed => exact .inl member
  | deleteInvalid sources =>
      cases outcome <;>
        exact .inl (KeyedTable.mem_deleteWhere.mp member).1
  | store stored =>
      cases outcome with
      | ok =>
          rcases KeyedTable.mem_insertOrReplace.mp member with rfl | ⟨old, _⟩
          · exact .inr rfl
          · exact .inl old
      | failed => exact .inl member

theorem perform_retained {work : Work Document} {outcome : Outcome}
    {rows : List (StoredLearnedStyle Document)}
    (retained : (perform env state work outcome).2 = .retained rows) :
    ∃ signatures, work = .reconcile signatures ∧
      rows = reconcileLearnedStyles env state signatures := by
  cases work with
  | enforceCap cap =>
      simp only [perform] at retained
      split at retained
      · cases outcome <;> cases retained
      · split at retained <;> cases retained
  | reconcile signatures =>
      cases outcome with
      | ok => exact ⟨signatures, rfl, (JobResult.retained.inj retained).symm⟩
      | failed => cases retained
  | deleteInvalid sources => cases outcome <;> cases retained
  | store stored => cases outcome <;> cases retained

/-- A reconciliation returns rows of the catalog which it was asked about. -/
theorem matchesCatalog_perform {catalog : List ChartSource}
    {work : Work Document} {outcome : Outcome}
    (matching : Job.matchesCatalog env catalog (.pending work)) :
    Job.matchesCatalog env catalog
      (.finished (perform env state work outcome).2) := by
  cases answer : (perform env state work outcome).2 with
  | retained rows =>
      obtain ⟨signatures, rfl, rfl⟩ := perform_retained answer
      exact fun row member => matching _ (mem_reconcileLearnedStyles member).2
  | _ => trivial

theorem runJob_traced (traced : Traced env state) {outcome : Outcome}
    (stepped : runJob env state id outcome = some next) :
    Traced env next := by
  simp only [runJob] at stepped
  split at stepped
  · next work pending =>
    cases stepped
    have before := traced.jobs id _ pending
    have rows : ∀ row ∈
        (perform env state work outcome).1.learnedStyles.rows,
        Known state.learned row.source (some row.sourceSignature)
          row.state.generation := by
      intro row member
      rcases perform_rows member with old | rfl
      · exact traced.rows row old
      · exact before
    have result : Job.traced state
        (.finished (perform env state work outcome).2) := by
      cases answer : (perform env state work outcome).2 with
      | retained kept =>
          obtain ⟨signatures, rfl, rfl⟩ := perform_retained answer
          exact fun row member =>
            traced.rows row (mem_reconcileLearnedStyles member).1
      | _ => trivial
    have quiet : Quiet state ((perform env state work outcome).1.setJob id
        (some (.finished (perform env state work outcome).2))) id := by
      rw [perform_eq]
      exact ⟨⟨rfl, rfl, ⟨[], (List.append_nil _).symm⟩, fun _ _ => rfl,
        fun other different => Function.update_of_ne different _ _,
        fun _ _ held => held⟩, rfl, rfl, rfl, fun published => published⟩
    refine quiet.traced traced rows ?_ ?_
    · intro own running
      cases (Function.update_self id _ _).symm.trans running
      exact quiet.toExtends.job result
    · intro own running
      have unmoved : state.tasks id = some own := by
        rw [perform_eq] at running
        exact running
      refine quiet.toExtends.task ?_ ?_ (traced.tasks id own unmoved)
      · rw [perform_eq]
        exact fun held => held
      · intro catalog matching job finished
        cases (Function.update_self id _ _).symm.trans finished
        exact matchesCatalog_perform (matching _ pending)
  · cases stepped

end Jobs

/-! ## Pushes -/

section Pushes

variable {env : Environment Document} {state next : AppState Document}
  {id : Nat}

/-- A step which no learn in progress can commit across: a push begins or
ends, or writes the catalog while it replaces the configuration. -/
structure Passes (state next : AppState Document) (id : Nat) : Prop where
  generation : state.configGeneration ≤ next.configGeneration
  passed : ∀ generation, generation % 2 = 0 →
    generation ≤ state.configGeneration → generation ≠ next.configGeneration
  boot : next.boot = state.boot
  learned : next.learned = state.learned
  learnedStyles : next.learnedStyles = state.learnedStyles
  styleState : next.styleState = state.styleState
  tasks : ∀ other, other ≠ id → next.tasks other = state.tasks other
  jobs : ∀ other, other ≠ id → next.jobs other = state.jobs other
  idle : ∀ other, other ≠ id → state.replacing other = false
  unlocked : ∀ other, other ≠ id → state.configUpdate ≠ some other

theorem Passes.job (passes : Passes state next id) {job : Job Document}
    (traced : job.traced state) : job.traced next := by
  simp only [Job.traced, passes.learned]
  exact traced

theorem Passes.task (passes : Passes state next id) {other : Nat}
    (different : other ≠ id) {task : Task Document}
    (running : state.tasks other = some task)
    (traced : task.traced env state other) :
    task.traced env next other := by
  have idle : task.replacing = false :=
    (replacing_of_task running).symm.trans (passes.idle other different)
  cases task with
  | holder => trivial
  | config body phase =>
      cases phase with
      | waiting => trivial
      | _ => cases idle
  | learn source generation phase =>
      obtain ⟨even, le, before⟩ := traced
      have passed := passes.passed generation even le
      refine ⟨even, le.trans passes.generation, ?_⟩
      cases phase with
      | resolving => trivial
      | reading definition => exact fun same => absurd same passed
      | fetching definition current =>
          exact ⟨fun same => absurd same passed,
            fun same => absurd same passed⟩
      | refreshing definition => exact fun same => absurd same passed
      | committing definition current content validator =>
          exact ⟨fun same => absurd same passed,
            fun same => absurd same passed⟩
      | persisting style =>
          exact absurd before.1 (passes.unlocked other different)
      | storing => trivial

theorem Passes.traced (passes : Passes state next id)
    (traced : Traced env state)
    (job : ∀ own, next.jobs id = some own → own.traced state)
    (task : ∀ own, next.tasks id = some own → own.traced env next id)
    (settled : ∀ style ∈ state.styleState.rows,
      style.configGeneration ≤ next.configGeneration)
    (entries : ∀ style ∈ state.styleState.rows,
      style.configGeneration =
        next.configGeneration + next.configGeneration % 2 →
      Current env next style) :
    Traced env next := by
  refine ⟨?_, ?_, ?_, ?_, ?_, ?_, ?_⟩
  · rw [passes.learned, passes.boot]
    exact traced.history
  · rw [passes.learned, passes.learnedStyles]
    exact traced.rows
  · intro other own running
    by_cases same : other = id
    · exact passes.job (job own (same ▸ running))
    · rw [passes.jobs other same] at running
      exact passes.job (traced.jobs other own running)
  · intro other own running
    by_cases same : other = id
    · rw [same] at running ⊢
      exact task own running
    · rw [passes.tasks other same] at running
      exact passes.task same running (traced.tasks other own running)
  · rw [passes.styleState]
    exact fun _ => settled
  · rw [passes.styleState]
    exact entries
  · rw [passes.learned, passes.boot]
    intro record member chosen booted
    obtain ⟨even, le, _⟩ := traced.renewed record member chosen booted
    exact ⟨even, le.trans passes.generation, fun same =>
      absurd same (passes.passed record.generation even le)⟩

theorem configBegin_traced (traced : Traced env state)
    (parity : Parity state) (ahead : Ahead state)
    (stepped : configBegin env state id = some next) : Traced env next := by
  simp only [configBegin] at stepped
  split at stepped
  · next body running free =>
    split at stepped
    · cases stepped
      exact traced.finish (not_publishing running rfl)
    · cases stepped
      have even := Nat.even_iff.mp (parity.even_of_free free)
      refine @Passes.traced Document env state _ id ⟨Nat.le_succ _, ?_,
        rfl, rfl, rfl, rfl,
        fun other different => Function.update_of_ne different _ _,
        fun other different => Function.update_of_ne different _ _,
        fun other _ => parity.owned.idle free other, ?_⟩ traced ?_ ?_
        ahead.entries ?_
      · intro generation _ le
        exact (Nat.lt_succ_of_le le).ne
      · intro other _ held
        cases free.symm.trans held
      · intro own worked
        cases (Function.update_self id _ state.jobs).symm.trans worked
        trivial
      · intro own moved
        cases (Function.update_self id _ state.tasks).symm.trans moved
        trivial
      · intro style member valid
        have bound := ahead.entries style member
        change style.configGeneration = state.configGeneration + 1 +
          (state.configGeneration + 1) % 2 at valid
        omega
  · cases stepped

theorem Owned.idle_others (owned : Owned state)
    (replaced : state.replacing id = true) {other : Nat}
    (different : other ≠ id) : state.replacing other = false := by
  by_contra replacing
  exact different (owned.unique (by simpa using replacing) replaced)

theorem Owned.unlocked_others (owned : Owned state)
    (replaced : state.replacing id = true) {other : Nat}
    (different : other ≠ id) : state.configUpdate ≠ some other := by
  rw [owned id replaced]
  exact fun same => different (Option.some.inj same).symm

/-- The last increment of a push. -/
theorem closed_traced (traced : Traced env state) (parity : Parity state)
    (ahead : Ahead state) (replaced : state.replacing id = true)
    (generation : next.configGeneration = state.configGeneration + 1)
    (sources : next.sources = state.sources)
    (boot : next.boot = state.boot)
    (learned : next.learned = state.learned)
    (learnedStyles : next.learnedStyles = state.learnedStyles)
    (styleState : next.styleState = state.styleState)
    (tasks : next.tasks = Function.update state.tasks id none)
    (jobs : ∀ other, other ≠ id → next.jobs other = state.jobs other)
    (job : ∀ own, next.jobs id = some own → own.traced state) :
    Traced env next := by
  have odd := Nat.odd_iff.mp (parity.odd.mpr ⟨id, replaced⟩)
  refine @Passes.traced Document env state _ id
    ⟨generation ▸ Nat.le_succ _, ?_, boot,
    learned, learnedStyles, styleState, ?_, jobs,
    fun other different => parity.owned.idle_others replaced different,
    fun other different => parity.owned.unlocked_others replaced different⟩
    traced job ?_ ?_ ?_
  · intro earlier _ le
    rw [generation]
    exact (Nat.lt_succ_of_le le).ne
  · intro other different
    rw [tasks, Function.update_of_ne different]
  · intro own running
    rw [tasks, Function.update_self] at running
    cases running
  · rw [generation]
    exact ahead.entries
  · intro style member valid
    have before : style.configGeneration =
        state.configGeneration + state.configGeneration % 2 := by
      omega
    obtain ⟨definition, found, known⟩ := traced.entries style member before
    exact ⟨definition, sources ▸ found, learned ▸ known⟩

theorem configPublish_traced (traced : Traced env state)
    (parity : Parity state) (ahead : Ahead state)
    (stepped : configPublish state id = some next) : Traced env next := by
  simp only [configPublish] at stepped
  split at stepped
  · next body running =>
    cases stepped
    exact closed_traced traced parity ahead (replacing_of_task running) rfl
      rfl rfl rfl rfl rfl rfl (fun _ _ => rfl) (traced.jobs id)
  · cases stepped

theorem configSources_traced (traced : Traced env state)
    (parity : Parity state)
    (stepped : configSources state id = some next) : Traced env next := by
  simp only [configSources] at stepped
  split at stepped
  · next body running =>
    cases stepped
    have replaced := replacing_of_task running
    have odd := Nat.odd_iff.mp (parity.odd.mpr ⟨id, replaced⟩)
    have settled := traced.settled fun other published => by
      cases parity.owned.unique (replacing_of_publishing published) replaced
      exact not_publishing running rfl published
    refine @Passes.traced Document env state _ id ⟨le_rfl, ?_,
      rfl, rfl, rfl, rfl,
      fun other different => Function.update_of_ne different _ _,
      fun _ _ => rfl,
      fun other different => parity.owned.idle_others replaced different,
      fun other different => parity.owned.unlocked_others replaced
        different⟩ traced (traced.jobs id) ?_ settled ?_
    · intro generation even _ same
      change generation = state.configGeneration at same
      omega
    · intro own moved
      cases (Function.update_self id _ state.tasks).symm.trans moved
      trivial
    · intro style member valid
      have bound := settled style member
      change style.configGeneration = state.configGeneration +
        state.configGeneration % 2 at valid
      omega
  · cases stepped

theorem configReconcile_traced (traced : Traced env state)
    (stepped : configReconcile env state id = some next) :
    Traced env next := by
  simp only [configReconcile] at stepped
  split at stepped
  · next body published running =>
    cases stepped
    refine traced.toPhase (not_publishing running rfl) ?_ ⟨?_, ?_⟩
    · rintro own ⟨⟩
      trivial
    · intro definition member
      exact KeyedTable.lookup_eq_some.mpr
        ⟨(List.mem_filter.mp member).1, rfl⟩
    · intro job pending
      cases (Function.update_self id _ state.jobs).symm.trans pending
      intro entry listed
      obtain ⟨definition, member, signed⟩ := List.mem_filterMap.mp listed
      obtain ⟨signature, same, rfl⟩ := Option.map_eq_some_iff.mp signed
      exact ⟨definition, member, rfl, same⟩
  · cases stepped

/-- A push goes on with rows of the catalog which it has published. -/
theorem current_restored {catalog : List ChartSource} {published : Nat}
    {rows : List (StoredLearnedStyle Document)}
    (found : ∀ definition ∈ catalog,
      state.sources.lookup definition.id = some definition)
    (matching : Job.matchesCatalog env catalog (.finished (.retained rows)))
    (known : Job.traced state (.finished (.retained rows)))
    {style : StyleState Document}
    (restored : style ∈ (rows.filter (validRetained env catalog)).map
      fun row => row.state.intoLive row.source published) :
    Current env state style := by
  obtain ⟨row, kept, rfl⟩ := List.mem_map.mp restored
  have member := (List.mem_filter.mp kept).1
  obtain ⟨definition, listed, named, signed⟩ := matching row member
  refine ⟨definition, ?_, ?_⟩
  · have lookup := found definition listed
    rw [named] at lookup
    exact lookup
  · rw [signed]
    exact known row member

theorem configResume_traced (traced : Traced env state)
    (parity : Parity state) (ahead : Ahead state)
    (stepped : configResume env state id = some next) : Traced env next := by
  have cleared : ∀ own, (none : Option (Job Document)) = some own →
      own.traced state := by
    intro own worked
    cases worked
  simp only [configResume] at stepped
  split at stepped
  · next running _ =>
    cases stepped
    exact traced.toPhase (not_publishing running rfl) cleared trivial
  · next running _ =>
    cases stepped
    refine closed_traced traced parity ahead (replacing_of_task running) rfl
      rfl rfl rfl rfl rfl rfl
      (fun other different => Function.update_of_ne different _ _) ?_
    intro own worked
    cases (Function.update_self id _ state.jobs).symm.trans worked
  · next body published catalog rows running finished =>
    have unpublished := not_publishing running rfl
    obtain ⟨found, matching⟩ := traced.tasks id _ running
    have restored : ∀ style ∈ (rows.filter (validRetained env catalog)).map
        (fun row => row.state.intoLive row.source published),
        Current env state style := fun style member =>
      current_restored found (matching _ finished)
        (traced.jobs id _ finished) member
    split at stepped
    · cases stepped
      exact traced.toPhase unpublished cleared restored
    · cases stepped
      refine traced.toPhase unpublished ?_ restored
      rintro own ⟨⟩
      trivial
  · next running _ =>
    cases stepped
    refine traced.toPhase (not_publishing running rfl) cleared ?_
    intro style member
    cases member
  · next running _ =>
    cases stepped
    exact traced.toPhase (not_publishing running rfl) cleared
      (traced.tasks id _ running)
  · cases stepped

theorem configInstall_traced (traced : Traced env state)
    (stepped : configInstall state id = some next) : Traced env next := by
  simp only [configInstall] at stepped
  split at stepped
  · next body restored running =>
    cases stepped
    have grows : Extends state ({ state with
        styleState := restored.foldl KeyedTable.insertOrReplace
          KeyedTable.empty }.toPhase id body .publishing) id :=
      ⟨rfl, rfl, ⟨[], (List.append_nil _).symm⟩,
        fun other different => Function.update_of_ne different _ _,
        fun _ _ => rfl, fun _ _ held => held⟩
    refine grows.traced traced traced.history traced.rows ?_ ?_ ?_ ?_
      traced.renewed
    · exact fun own worked => grows.job (traced.jobs id own worked)
    · intro own moved
      cases (Function.update_self id _ state.tasks).symm.trans moved
      trivial
    · intro unpublished
      exact absurd ⟨_, Function.update_self id _ state.tasks, rfl⟩
        (unpublished id)
    · intro style member _
      rcases KeyedTable.mem_of_mem_foldl_insertOrReplace member with
        old | installed
      · cases old
      · exact grows.current (traced.tasks id _ running style installed)
  · cases stepped

end Pushes

/-! ## Every step -/

section Steps

variable {env : Environment Document} {state next : AppState Document}

theorem booted_traced (traced : Traced env state) (deferred : Bool) :
    Traced env (state.booted env deferred) where
  history := ⟨fun record member =>
      (traced.history.boots record member).trans (Nat.le_succ _),
    traced.history.origin, traced.history.distinct⟩
  rows := traced.rows
  jobs := by
    intro id job running
    cases running
  tasks := by
    intro id task running
    cases running
  settled := by
    intro _ style member
    cases member
  entries := by
    intro style member
    cases member
  renewed := by
    intro record member _ booted
    have earlier := traced.history.boots record member
    rw [booted] at earlier
    exact absurd earlier (Nat.not_succ_le_self _)

theorem configRequest_traced (traced : Traced env state) {id : Nat}
    {body : ConfigBody} (unused : state.tasks id = none) :
    Traced env (state.toPhase id body .waiting) := by
  have moved := @Traced.toPhase Document env state id traced body .waiting _
    (not_publishing_of_unused unused) (traced.jobs id) trivial
  rwa [setJob_self] at moved

theorem lockHolder_traced (traced : Traced env state) {id : Nat}
    (unused : state.tasks id = none) (free : state.configUpdate = none) :
    Traced env ({ state with configUpdate := some id }.setTask id
      (some .holder)) := by
  have unowned : ∀ other, other ≠ id → state.configUpdate = some other →
      some id = some other := by
    intro other _ taken
    cases free.symm.trans taken
  have held := @Traced.setTask Document env state id traced (some .holder) _
    (some id) (not_publishing_of_unused unused) unowned (traced.jobs id)
    (by rintro own ⟨⟩; trivial)
  rwa [setJob_self] at held

theorem Traced.same (traced : Traced env state)
    (learnedStyles : next.learnedStyles = state.learnedStyles)
    (sources : next.sources = state.sources)
    (styleState : next.styleState = state.styleState)
    (generation : next.configGeneration = state.configGeneration)
    (lock : next.configUpdate = state.configUpdate)
    (tasks : next.tasks = state.tasks) (jobs : next.jobs = state.jobs)
    (boot : next.boot = state.boot)
    (learned : next.learned = state.learned) : Traced env next := by
  have quiet : Quiet state next 0 := by
    refine ⟨⟨sources, generation, ⟨[], ?_⟩, ?_, ?_, ?_⟩, styleState, boot,
      learned, ?_⟩
    · rw [learned, List.append_nil]
    · exact fun other _ => congrFun tasks other
    · exact fun other _ => congrFun jobs other
    · exact fun other _ held => lock.trans held
    · rintro ⟨task, running, publishing⟩
      exact ⟨task, (congrFun tasks 0).trans running, publishing⟩
  refine quiet.traced traced (learnedStyles ▸ traced.rows) ?_ ?_
  · intro own running
    rw [jobs] at running
    exact quiet.toExtends.job (traced.jobs 0 own running)
  · intro own running
    rw [tasks] at running
    refine quiet.toExtends.task (fun held => lock.trans held) ?_
      (traced.tasks 0 own running)
    rw [jobs]
    exact fun _ matching => matching

theorem dropTask_traced (traced : Traced env state) {id : Nat}
    (kept : ¬ losesPush state (.drop id : Label Document))
    (stepped : dropTask state id = some next) : Traced env next := by
  simp only [dropTask] at stepped
  split at stepped <;> cases stepped
  exact traced.finish fun published =>
    kept (replacing_of_publishing published)

theorem step_traced (traced : Traced env state) (parity : Parity state)
    (ahead : Ahead state) {label : Label Document}
    (kept : ¬ losesPush state label)
    (fresh : ¬ TakesUsedNamespace env state label)
    (stepped : step env state label = some next) : Traced env next := by
  cases label with
  | configRequest id body =>
      simp only [step, configRequest] at stepped
      split at stepped
      · next enabled =>
        cases stepped
        exact configRequest_traced traced (by simpa using enabled.1)
      · cases stepped
  | configBegin id => exact configBegin_traced traced parity ahead stepped
  | configSources id => exact configSources_traced traced parity stepped
  | configReconcile id => exact configReconcile_traced traced stepped
  | configResume id => exact configResume_traced traced parity ahead stepped
  | configInstall id => exact configInstall_traced traced stepped
  | configPublish id => exact configPublish_traced traced parity ahead stepped
  | runJob id outcome => exact runJob_traced traced stepped
  | learnRequest id source now => exact learnRequest_traced traced stepped
  | learnResolve id => exact learnResolve_traced traced stepped
  | learnExisting id => exact learnExisting_traced traced stepped
  | learnAnswer id answer => exact learnAnswer_traced traced stepped
  | learnCommit id now => exact learnCommit_traced traced fresh stepped
  | learnPersist id => exact learnPersist_traced traced stepped
  | learnFinish id => exact learnFinish_traced traced stepped
  | lockHolder id =>
      simp only [step, lockHolder] at stepped
      split at stepped
      · next enabled =>
        cases stepped
        exact lockHolder_traced traced (by simpa using enabled.1)
          (by simpa using enabled.2.2)
      · cases stepped
  | unlockHolder id =>
      simp only [step, unlockHolder] at stepped
      split at stepped
      · next running =>
        cases stepped
        exact traced.finish (not_publishing running rfl)
      · cases stepped
  | scrollTtl ttl =>
      cases stepped
      simp only [setScrollTtl]
      split
      · exact traced.same rfl rfl rfl rfl rfl rfl rfl rfl rfl
      · exact traced
  | cacheCall op =>
      cases stepped
      exact traced.same rfl rfl rfl rfl rfl rfl rfl rfl rfl
  | drop id => exact dropTask_traced traced kept stepped
  | boot deferred =>
      cases stepped
      exact booted_traced traced deferred

end Steps

/-! ## Runs -/

theorem traced_firstBoot (env : Environment Document) :
    Traced env (firstBoot env) where
  history := by
    constructor <;> intro record member <;> cases member
  rows := by
    intro row member
    cases member
  jobs := by
    intro id job running
    cases running
  tasks := by
    intro id task running
    cases running
  settled := by
    intro _ style member
    cases member
  entries := by
    intro style member
    cases member
  renewed := by
    intro record member
    cases member

theorem traced_exec {env : Environment Document}
    {labels : List (Label Document)} {final : AppState Document}
    (run : (configMachine env).exec (firstBoot env) labels = some final)
    (kept : (configMachine env).AllSteps
      (fun state label => ¬ losesPush state label) (firstBoot env) labels)
    (fresh : (configMachine env).AllSteps
      (fun state label => ¬ TakesUsedNamespace env state label)
      (firstBoot env) labels) :
    Traced env final := by
  have invariants := Machine.exec_preserves_of_allSteps
    (motive := fun state => Traced env state ∧ Parity state ∧ Ahead state)
    (fun state label next before met stepped =>
      ⟨step_traced before.1 before.2.1 before.2.2 met.1 met.2 stepped,
        before.2.1.moves (step_moves stepped) met.1,
        step_ahead before.2.2 before.2.1.owned stepped⟩)
    run (Machine.allSteps_and kept fresh)
    ⟨traced_firstBoot env, parity_firstBoot env, ahead_booted env _ _⟩
  exact invariants.1

/-- Two learns of a source under different signatures never share a
namespace. -/
def NamespacesDistinct (state : AppState Document) : Prop :=
  ∀ left ∈ state.learned, ∀ right ∈ state.learned,
    left.source = right.source → left.signature ≠ right.signature →
    left.generation ≠ right.generation

theorem Traced.namespacesDistinct {env : Environment Document}
    {state : AppState Document} (traced : Traced env state) :
    NamespacesDistinct state := by
  intro left leftMember right rightMember source different generation
  exact different (traced.history.signature_eq leftMember rightMember source
    generation)

theorem not_distinct_of_takes {env : Environment Document}
    {state next : AppState Document} {label : Label Document}
    (takes : TakesUsedNamespace env state label)
    (stepped : step env state label = some next) :
    ¬ NamespacesDistinct next := by
  cases label with
  | learnCommit id now =>
      obtain ⟨source, definition, content, validator, running, room, record,
        member, _, _, named, numbered, different⟩ := takes
      simp only [step, learnCommit, running] at stepped
      split at stepped
      · next equality _ => cases equality
      · next equality _ =>
        cases equality
        rw [if_pos rfl, if_neg room] at stepped
        cases stepped
        intro distinct
        exact distinct record (List.mem_append_left _ member) _
          (List.mem_append_right _ List.mem_cons_self) named different
          numbered
      · cases stepped
  | _ => exact absurd takes id

/-- In a run whose pushes are not lost, no two learns of a source under
different signatures ever share a namespace if and only if no learn without a
current entry commits at the generation of such a learn in another boot. -/
theorem namespaces_distinct_iff {env : Environment Document}
    {labels : List (Label Document)} {final : AppState Document}
    (run : (configMachine env).exec (firstBoot env) labels = some final)
    (kept : (configMachine env).AllSteps
      (fun state label => ¬ losesPush state label) (firstBoot env) labels) :
    (∀ done rest state, labels = done ++ rest →
      (configMachine env).exec (firstBoot env) done = some state →
      NamespacesDistinct state) ↔
    (configMachine env).AllSteps
      (fun state label => ¬ TakesUsedNamespace env state label)
      (firstBoot env) labels := by
  constructor
  · intro distinct
    rcases Machine.allSteps_or_first
      (fun state label => ¬ TakesUsedNamespace env state label) run with
      all | ⟨before, label, after, state, next, rfl, reached, stepped, _,
        takes⟩
    · exact all
    · exfalso
      have reachedNext : (configMachine env).exec (firstBoot env)
          (before ++ [label]) = some next :=
        Machine.exec_append_eq_some.mpr ⟨state, reached,
          Machine.exec_cons_eq_some.mpr ⟨next, stepped, rfl⟩⟩
      exact not_distinct_of_takes (not_not.mp takes) stepped
        (distinct (before ++ [label]) after next (by simp) reachedNext)
  · rintro fresh done rest state rfl reached
    exact (traced_exec reached (Machine.allSteps_append.mp kept).1
      (Machine.allSteps_append.mp fresh).1).namespacesDistinct

/-- Every learn of the history was committed in this boot. -/
def OneBoot (state : AppState Document) : Prop :=
  ∀ record ∈ state.learned, record.boot = state.boot

theorem oneBoot_of_step {env : Environment Document}
    {state next : AppState Document} {label : Label Document}
    (once : OneBoot state) (stepped : step env state label = some next)
    (awake : ∀ deferred, label ≠ .boot deferred) : OneBoot next := by
  have installed : ∀ {id : Nat} {style : StyleState Document}
      {generation : Nat} {definition : ChartSource} {renewed : Bool},
      OneBoot (installStyle env state id style generation definition
        renewed) := by
    intro id style generation definition renewed record member
    rcases List.mem_append.mp member with earlier | last
    · exact once record earlier
    · rw [List.mem_singleton.mp last]
      rfl
  cases label with
  | boot deferred => exact absurd rfl (awake deferred)
  | scrollTtl ttl =>
      cases stepped
      simp only [setScrollTtl]
      split <;> exact once
  | cacheCall op =>
      cases stepped
      exact once
  | runJob id outcome =>
      simp only [step, runJob] at stepped
      split at stepped <;> cases stepped
      rw [perform_eq]
      exact once
  | _ =>
      simp only [step, configRequest, configBegin, configSources,
        configReconcile, configResume, configInstall, configPublish,
        learnRequest, learnResolve, learnExisting, learnAnswer, learnCommit,
        learnPersist, learnFinish, lockHolder, unlockHolder,
        dropTask] at stepped
      repeat' split at stepped
      all_goals first
        | contradiction
        | (cases stepped; exact once)
        | (cases stepped; exact installed)

/-- Until the process starts again, whatever is pushed and learned. -/
theorem distinct_of_one_boot {env : Environment Document}
    {labels : List (Label Document)} {final : AppState Document}
    (run : (configMachine env).exec (firstBoot env) labels = some final)
    (kept : (configMachine env).AllSteps
      (fun state label => ¬ losesPush state label) (firstBoot env) labels)
    (awake : ∀ label ∈ labels, ∀ deferred, label ≠ .boot deferred) :
    NamespacesDistinct final := by
  have steps : (configMachine env).AllSteps (fun state label =>
      OneBoot state ∧ ∀ deferred, label ≠ .boot deferred) (firstBoot env)
      labels := by
    apply Machine.allSteps_invariant
    · intro state label next once awake stepped
      exact oneBoot_of_step once stepped awake
    · exact Machine.allSteps_of_labels fun label member _ =>
        awake label member
    · intro record member
      cases member
  have fresh : (configMachine env).AllSteps (fun state label =>
      ¬ TakesUsedNamespace env state label) (firstBoot env) labels := by
    refine steps.mono ?_
    rintro state label ⟨once, _⟩ takes
    cases label with
    | learnCommit id now =>
        obtain ⟨_, _, _, _, _, _, record, member, elsewhere, _⟩ := takes
        exact elsewhere (once record member)
    | _ => exact takes
  exact (traced_exec run kept fresh).namespacesDistinct

/-- A catalog whose one style is redefined between two boots. -/
def redefinedStyle : List (Label Nat) :=
  acceptedPush 1 { sampleBody with sources := [libertySource] } ++
    acceptedLearn 2 "liberty" 100 7 ++ [.boot false] ++
    acceptedPush 1 { sampleBody with
      sources := [{ libertySource with title := "Harbour" }] } ++
    acceptedLearn 2 "liberty" 200 9

/-- Both definitions of the style take the namespace of the first push of
their boot. -/
theorem redefinedStyle_shares_namespace :
    ∃ state, (configMachine sampleEnvironment).exec
        (firstBoot sampleEnvironment) redefinedStyle = some state ∧
      state.learned =
        [⟨1, "liberty", some "Liberty", 2, true⟩,
          ⟨2, "liberty", some "Harbour", 2, true⟩] ∧
      ¬ NamespacesDistinct state := by
  refine ⟨_, rfl, rfl, fun distinct => ?_⟩
  exact distinct _ List.mem_cons_self _
    (List.mem_cons_of_mem _ List.mem_cons_self) rfl (by decide) rfl

theorem namespaces_distinct_iff_redefinedStyle :
    ∃ final, (configMachine sampleEnvironment).exec
        (firstBoot sampleEnvironment) redefinedStyle = some final ∧
      ¬ (configMachine sampleEnvironment).AllSteps
        (fun state label => ¬ TakesUsedNamespace sampleEnvironment state
          label) (firstBoot sampleEnvironment) redefinedStyle := by
  have kept : (configMachine sampleEnvironment).AllSteps
      (fun state label => ¬ losesPush state label)
      (firstBoot sampleEnvironment) redefinedStyle := by
    apply Machine.allSteps_of_labels
    simp [redefinedStyle, acceptedPush, acceptedLearn, losesPush]
  refine ⟨_, rfl, ?_⟩
  rw [← namespaces_distinct_iff rfl kept]
  intro distinct
  exact distinct redefinedStyle [] _ (by simp) rfl _ List.mem_cons_self _
    (List.mem_cons_of_mem _ List.mem_cons_self) rfl (by decide) rfl

end ChartLocker.Config
