import ChartLocker.Warm.Origins

/-!
# What a step of the driver does to its download

The tiles of a job are in its enumeration, in one of its tasks, in its batch,
in a flush, or stored under its staging region.  Each step of the driver moves
them from one of these places to the next, counts an error or gives up the
verdict `done`.
-/

namespace ChartLocker.Warm

open Library Cache Catalog

variable {Document : Type} {env : Environment Document}
  {service : Service Document}

def RunPhase.isFlush : RunPhase → Bool
  | .flushing _ _ _ _ => true
  | _ => false

theorem isFlush_eq_true {phase : RunPhase} :
    phase.isFlush = true ↔ ∃ rows budget cap resume,
      phase = .flushing rows budget cap resume := by
  cases phase <;> simp [RunPhase.isFlush]

/-- The tiles have been enumerated, and the staging region has not been
promoted. -/
def RunPhase.isLoading : RunPhase → Bool
  | .enumerating | .permitting | .draining | .flushing _ _ _ _ | .joining
  | .awaiting | .tail | .counting | .assets _ | .replacing | .locking
  | .guarded _ | .promoting _ _ _ _ => true
  | _ => false

/-- The rows of the batch and those of a flush which is under way. -/
def WarmJob.rows (job : WarmJob) : List WarmRow :=
  job.batch ++
    match job.phase with
    | .flushing rows _ _ _ => rows
    | _ => []

/-- The tiles which the job downloads. -/
def WarmJob.keys (env : Environment Document) (job : WarmJob) :
    List TileKey :=
  (job.enumeration env).map Prod.snd

/-- The rows which the result of a task adds to the batch. -/
def resultRows : Option Fetched → List WarmRow
  | some (.tile row) | some (.negative row) => [row]
  | _ => []

/-- The result is a row, or says that the tile is stored. -/
def accounted : Option Fetched → Bool
  | some (.tile _) | some (.negative _) | some .skipped => true
  | _ => false

/-- The driver goes on with the tiles where they are. -/
structure WarmJob.Passes (job next : WarmJob) : Prop where
  expanded : ∃ more, next.expanded = job.expanded ++ more
  remaining : next.remaining = job.remaining
  set : next.set = job.set
  rows : next.rows = job.rows
  errors : next.errors = 0 → job.errors = 0
  verdict : next.finalState = .done → job.finalState = .done
  loading : next.phase.isLoading = true →
    job.phase.isLoading = true ∧ next.expanded = job.expanded

/-- An effect which touches neither the tile tasks nor the staging region of
the tiles. -/
def Effect.Aside (service : Service Document) : Effect → Prop
  | .spawn _ worker => ∃ task, worker = .asset task
  | .take id => ∃ task, service.workers id = some (.asset task)
  | _ => True

inductive WarmJob.Loads (env : Environment Document)
    (service : Service Document) (job : WarmJob) :
    Event → WarmJob → Effect → Prop where
  | passes {event : Event} {next : WarmJob} {effect : Effect}
      (passes : job.Passes next) (aside : effect.Aside service)
      (still : job.phase.isFlush = false) :
      Loads env service job event next effect
  | enumerates {next : WarmJob} (gating : job.phase = .gating)
      (expanded : next.expanded = job.expanded)
      (remaining : next.remaining = job.enumeration env)
      (set : next.set = job.set) (rows : next.rows = job.rows)
      (errors : next.errors = job.errors)
      (verdict : next.finalState = job.finalState) :
      Loads env service job .go next .quiet
  | spawns {id : Nat} {source : ChartSource} {key : TileKey}
      {rest : List (ChartSource × TileKey)}
      (yields : job.remaining = (source, key) :: rest)
      (permitting : job.phase = .permitting) :
      Loads env service job (.spawned id)
        { job with
          remaining := rest
          set := id :: job.set
          phase := .draining }
        (.spawn id (.tile
          { order := job.order
            source := source
            key := key
            target := job.regionId
            storage := job.storage
            replacementCredit := job.replacementCredit
            held := false
            phase := .pinning false }))
  | collects {id : Nat} {task : TileTask} {result : Option Fetched}
      {next : WarmJob} (loading : job.phase.isLoading = true)
      (member : id ∈ job.set)
      (found : service.workers id = some (.tile task))
      (finished : task.phase = .finished result)
      (expanded : next.expanded = job.expanded)
      (remaining : next.remaining = job.remaining)
      (set : next.set = job.set.filter (· ≠ id))
      (rows : next.rows = job.rows ∨
        next.rows = job.rows ++ resultRows result)
      (errors : next.errors = 0 → job.errors = 0)
      (verdict : next.finalState = .done → job.finalState = .done)
      (kept : next.finalState = .done → next.errors = 0 →
        accounted result = true ∧
          next.rows = job.rows ++ resultRows result) :
      Loads env service job (.joined id) next (.take id)
  | stores {rows : List WarmRow} {budget cap now : Int} {resume : Resume}
      {disk : DiskSpace} {next : WarmJob}
      (flushing : job.phase = .flushing rows budget cap resume)
      (expanded : next.expanded = job.expanded)
      (remaining : next.remaining = job.remaining)
      (set : next.set = job.set) (batch : next.rows = job.batch)
      (errors : next.errors = job.errors)
      (verdict : next.finalState = .done →
        job.finalState = .done ∧ (service.cache.putManyPinned disk rows
          budget cap job.storage now).1.capped = false) :
      Loads env service job (.call disk now) next
        (.call (.putManyPinned disk rows budget cap job.storage now))
  | loses {rows : List WarmRow} {budget cap : Int} {resume : Resume}
      {next : WarmJob}
      (flushing : job.phase = .flushing rows budget cap resume)
      (expanded : next.expanded = job.expanded)
      (remaining : next.remaining = job.remaining)
      (set : next.set = job.set) (batch : next.rows = job.batch)
      (errors : next.errors ≠ 0)
      (verdict : next.finalState = .done → job.finalState = .done) :
      Loads env service job .failed next .quiet

/-! ## The parts of a step -/

namespace WarmJob

variable {job next last : WarmJob}

theorem rows_of_still (still : job.phase.isFlush = false) :
    job.rows = job.batch := by
  unfold rows
  split
  · next flushing =>
    rw [flushing] at still
    cases still
  · exact List.append_nil _

theorem Resume.still (resume : Resume) : resume.phase.isFlush = false := by
  cases resume <;> rfl

theorem rows_flush (resume : Resume) (rows : List WarmRow) :
    (job.flush service resume rows).rows = rows :=
  List.nil_append rows

/-- What `accumulate` does with a result. -/
structure Collects (job next : WarmJob) (result : Option Fetched) :
    Prop where
  expanded : next.expanded = job.expanded
  remaining : next.remaining = job.remaining
  set : next.set = job.set
  rows : next.rows = job.batch ∨ next.rows = job.batch ++ resultRows result
  errors : next.errors = 0 → job.errors = 0
  verdict : next.finalState = .done → job.finalState = .done
  kept : next.finalState = .done → next.errors = 0 →
    accounted result = true ∧ next.rows = job.batch ++ resultRows result

/-- A result which fails the job. -/
theorem collects_of_failure {result : Option Fetched}
    (expanded : next.expanded = job.expanded)
    (remaining : next.remaining = job.remaining) (set : next.set = job.set)
    (rows : next.rows = job.batch)
    (errors : next.errors = 0 → job.errors = 0)
    (verdict : next.finalState = .done → job.finalState = .done)
    (fails : next.finalState = .done → next.errors ≠ 0) :
    job.Collects next result :=
  ⟨expanded, remaining, set, .inl rows, errors, verdict,
    fun done clean => absurd clean (fails done)⟩

theorem rows_cancelWith (state : WarmState) :
    (job.cancelWith state).rows = job.batch :=
  List.append_nil job.batch

theorem rows_breakWith (state : WarmState) :
    (job.breakWith state).rows = job.batch :=
  List.append_nil job.batch

theorem collects_accumulate (resume : Resume) (fetched : Fetched) :
    job.Collects (job.accumulate service resume fetched) (some fetched) := by
  cases fetched with
  | tile row | negative row =>
      simp only [accumulate]
      split
      · exact ⟨rfl, rfl, rfl, .inr (rows_flush resume _), id, id,
          fun _ _ => ⟨rfl, rows_flush resume _⟩⟩
      · have same : WarmJob.rows { job with
            batch := job.batch ++ [row]
            phase := resume.phase } = job.batch ++ [row] :=
          rows_of_still (Resume.still resume)
        exact ⟨rfl, rfl, rfl, .inr same, id, id, fun _ _ => ⟨rfl, same⟩⟩
  | skipped =>
      have same : WarmJob.rows { job with
          skipped := job.skipped + 1
          phase := resume.phase } = job.batch ++ [] :=
        (rows_of_still (Resume.still resume)).trans (List.append_nil _).symm
      exact ⟨rfl, rfl, rfl, .inr same, id, id, fun _ _ => ⟨rfl, same⟩⟩
  | error =>
      exact collects_of_failure rfl rfl rfl
        (rows_of_still (Resume.still resume))
        (fun none => absurd none (Nat.succ_ne_zero _)) id
        fun _ => Nat.succ_ne_zero _
  | capped | cancelled =>
      exact collects_of_failure rfl rfl rfl (rows_cancelWith _) id
        (fun done => WarmState.noConfusion done)
        fun done => WarmState.noConfusion done

theorem collects_drained (result : Option Fetched) :
    job.Collects (job.drained service result) result := by
  cases result with
  | some fetched => exact collects_accumulate .draining fetched
  | none =>
      exact collects_of_failure rfl rfl rfl (rows_cancelWith _)
        (fun none => absurd none (Nat.succ_ne_zero _))
        (fun done => WarmState.noConfusion done)
        fun done => WarmState.noConfusion done

theorem collects_joinedTask (result : Option Fetched) :
    job.Collects (job.joinedTask service result) result := by
  cases result with
  | some fetched =>
      simp only [joinedTask]
      split
      · exact collects_accumulate .joining fetched
      · next failed =>
        exact collects_of_failure rfl rfl rfl (rows_of_still rfl) id id
          fun done => absurd done failed
  | none =>
      exact collects_of_failure rfl rfl rfl (rows_breakWith _)
        (fun none => absurd none (Nat.succ_ne_zero _))
        (fun done => WarmState.noConfusion done)
        fun done => WarmState.noConfusion done

theorem Passes.trans (first : job.Passes next) (second : next.Passes last) :
    job.Passes last where
  expanded := by
    obtain ⟨more, same⟩ := first.expanded
    obtain ⟨rest, later⟩ := second.expanded
    exact ⟨more ++ rest, by rw [later, same, List.append_assoc]⟩
  remaining := second.remaining.trans first.remaining
  set := second.set.trans first.set
  rows := second.rows.trans first.rows
  errors clean := first.errors (second.errors clean)
  verdict done := first.verdict (second.verdict done)
  loading loads := by
    obtain ⟨middle, same⟩ := second.loading loads
    obtain ⟨before, earlier⟩ := first.loading middle
    exact ⟨before, same.trans earlier⟩

/-- A step between two phases which are not flushes. -/
theorem passes_of_still (still : job.phase.isFlush = false)
    (after : next.phase.isFlush = false)
    (expanded : next.expanded = job.expanded)
    (remaining : next.remaining = job.remaining) (set : next.set = job.set)
    (batch : next.batch = job.batch)
    (errors : next.errors = 0 → job.errors = 0)
    (verdict : next.finalState = .done → job.finalState = .done)
    (loading : next.phase.isLoading = true → job.phase.isLoading = true) :
    job.Passes next where
  expanded := ⟨[], expanded.trans (List.append_nil _).symm⟩
  remaining := remaining
  set := set
  rows := (rows_of_still after).trans
    (batch.trans (rows_of_still still).symm)
  errors := errors
  verdict := verdict
  loading loads := ⟨loading loads, expanded⟩

theorem passes_error : job.Passes { job with finalState := .error } :=
  ⟨⟨[], (List.append_nil _).symm⟩, rfl, rfl, rfl, id,
    fun done => WarmState.noConfusion done, fun loads => ⟨loads, rfl⟩⟩

theorem Passes.refl (job : WarmJob) : job.Passes job :=
  ⟨⟨[], (List.append_nil _).symm⟩, rfl, rfl, rfl, id, id,
    fun loads => ⟨loads, rfl⟩⟩

theorem passes_checkErrors : job.Passes job.checkErrors := by
  unfold checkErrors
  split
  · exact passes_error
  · exact .refl job

theorem passes_checkComplete : job.Passes job.checkComplete := by
  unfold checkComplete
  split
  · exact passes_error
  · exact .refl job

theorem passes_checkGeneration :
    job.Passes (job.checkGeneration service) := by
  unfold checkGeneration
  split
  · exact passes_error
  · exact .refl job

theorem phase_checkErrors : job.checkErrors.phase = job.phase := by
  unfold checkErrors
  split <;> rfl

theorem phase_checkComplete : job.checkComplete.phase = job.phase := by
  unfold checkComplete
  split <;> rfl

theorem phase_checkGeneration :
    (job.checkGeneration service).phase = job.phase := by
  unfold checkGeneration
  split <;> rfl

theorem passes_enter {phase : RunPhase} (still : job.phase.isFlush = false)
    (after : phase.isFlush = false)
    (loading : phase.isLoading = true → job.phase.isLoading = true) :
    job.Passes (job.enter phase) :=
  passes_of_still still after rfl rfl rfl rfl id id loading

/-- The check of the generation, and then another phase of the download. -/
theorem passes_checkGeneration_enter {phase : RunPhase}
    (still : job.phase.isFlush = false)
    (loading : job.phase.isLoading = true) (after : phase.isFlush = false) :
    job.Passes ((job.checkGeneration service).enter phase) := by
  have same : (job.checkGeneration service).phase = job.phase :=
    phase_checkGeneration
  apply passes_checkGeneration.trans
  apply passes_enter _ after
  · intro _
    rw [same]
    exact loading
  · rw [same]
    exact still

/-- The checks of the counters, and then another phase of the download. -/
theorem passes_counted_enter {phase : RunPhase}
    (still : job.phase.isFlush = false)
    (loading : job.phase.isLoading = true) (after : phase.isFlush = false) :
    job.Passes ((job.checkErrors.checkComplete.checkGeneration
      service).enter phase) := by
  have same : job.checkErrors.checkComplete.phase = job.phase :=
    phase_checkComplete.trans phase_checkErrors
  apply (passes_checkErrors.trans passes_checkComplete).trans
  apply passes_checkGeneration_enter _ _ after
  · rw [same]
    exact still
  · rw [same]
    exact loading

theorem passes_breakWith {state : WarmState}
    (still : job.phase.isFlush = false) (fails : state ≠ .done)
    (loading : job.phase.isLoading = true) :
    job.Passes (job.breakWith state) :=
  passes_of_still still rfl rfl rfl rfl rfl id
    (fun done => absurd done fails) fun _ => loading

theorem passes_abortExpansion (still : job.phase.isFlush = false) :
    job.Passes job.abortExpansion :=
  passes_of_still still rfl rfl rfl rfl rfl
    (fun none => absurd none (Nat.succ_ne_zero _)) id
    fun loads => Bool.noConfusion loads

theorem passes_conclude (still : job.phase.isFlush = false) :
    job.Passes job.conclude := by
  unfold conclude
  split
  · exact passes_enter still rfl fun loads => Bool.noConfusion loads
  · exact passes_enter still rfl fun loads => Bool.noConfusion loads

theorem passes_assetsStopped (still : job.phase.isFlush = false)
    (loading : job.phase.isLoading = true) (reason : AssetStop) :
    job.Passes (job.assetsStopped reason) := by
  unfold assetsStopped
  split
  · exact passes_of_still still rfl rfl rfl rfl rfl id
      (fun done => WarmState.noConfusion done) fun _ => loading
  · cases reason with
    | capped =>
        exact passes_of_still still rfl rfl rfl rfl rfl id
          (fun done => WarmState.noConfusion done) fun _ => loading
    | failed =>
        exact passes_of_still still rfl rfl rfl rfl rfl
          (fun none => absurd none (Nat.succ_ne_zero _))
          (fun done => WarmState.noConfusion done) fun _ => loading

end WarmJob

/-- A result which is collected outside a flush. -/
theorem WarmJob.loads_of_collects {job next : WarmJob} {id : Nat}
    {task : TileTask} {result : Option Fetched}
    (still : job.phase.isFlush = false)
    (loading : job.phase.isLoading = true) (member : id ∈ job.set)
    (found : service.workers id = some (.tile task))
    (finished : task.phase = .finished result)
    (collects : (job.withoutTask id).Collects next result) :
    job.Loads env service (.joined id) next (.take id) := by
  have rows : job.rows = job.batch := rows_of_still still
  refine .collects loading member found finished collects.expanded
    collects.remaining collects.set ?_ collects.errors collects.verdict ?_
  · rw [rows]
    exact collects.rows
  · rw [rows]
    exact collects.kept

/-- The result of a task of the set is collected. -/
theorem WarmJob.loads_of_finished {job next : WarmJob} {id : Nat}
    {effect : Effect} {after : Option Fetched → WarmJob}
    (still : job.phase.isFlush = false)
    (loading : job.phase.isLoading = true) (member : id ∈ job.set)
    (collects : ∀ result, (job.withoutTask id).Collects (after result) result)
    (stepped : ((finishedTask service id).map fun result =>
      (after result, Effect.take id)) = some (next, effect)) :
    job.Loads env service (.joined id) next effect := by
  obtain ⟨result, found, same⟩ := Option.map_eq_some_iff.mp stepped
  cases same
  obtain ⟨task, present, finished⟩ := finishedTask_eq_some.mp found
  exact loads_of_collects still loading member present finished
    (collects result)

/-- The stage of the assets spawns and takes tasks of its own. -/
theorem AssetStage.step_aside {job : WarmJob} {stage : AssetStage}
    {event : Event} {progress : AssetProgress} {effect : Effect}
    (stepped : stage.step env service job event = some (progress, effect)) :
    effect.Aside service := by
  simp only [AssetStage.step] at stepped
  repeat' split at stepped
  all_goals first
    | contradiction
    | (cases stepped; trivial)
    | (cases stepped; exact ⟨_, rfl⟩)
    | (obtain ⟨result, found, same⟩ := Option.map_eq_some_iff.mp stepped
       cases same
       obtain ⟨task, present, _⟩ := finishedAsset_eq_some.mp found
       exact ⟨task, present⟩)

/-- A flush which was not capped leaves the verdict. -/
theorem WarmJob.flushed_spec {job : WarmJob} (resume : Resume)
    (outcome : PutManyOutcome) :
    (job.flushed resume outcome).expanded = job.expanded ∧
    (job.flushed resume outcome).remaining = job.remaining ∧
    (job.flushed resume outcome).set = job.set ∧
    (job.flushed resume outcome).rows = job.batch ∧
    (job.flushed resume outcome).errors = job.errors ∧
    ((job.flushed resume outcome).finalState = .done →
      job.finalState = .done ∧ outcome.capped = false) := by
  cases capped : outcome.capped with
  | true =>
      cases resume with
      | counting =>
          simp only [flushed, capped, if_true]
          exact ⟨trivial, trivial, trivial, rows_of_still rfl, trivial,
            fun done => WarmState.noConfusion done⟩
      | draining | joining =>
          simp only [flushed, capped, if_true]
          exact ⟨rfl, rfl, rfl, rows_cancelWith _, rfl,
            fun done => WarmState.noConfusion done⟩
  | false =>
      simp only [flushed, capped, Bool.false_eq_true, if_false]
      exact ⟨rfl, rfl, rfl, rows_of_still (Resume.still resume), rfl,
        fun done => ⟨done, trivial⟩⟩

open WarmJob in
theorem WarmJob.flush_loads {job next : WarmJob} {event : Event}
    {effect : Effect} {rows : List WarmRow} {budget cap : Int}
    {resume : Resume}
    (flushing : job.phase = .flushing rows budget cap resume)
    (stepped : job.step env service event = some (next, effect)) :
    job.Loads env service event next effect := by
  simp only [WarmJob.step, flushing] at stepped
  split at stepped
  all_goals first | contradiction | skip
  · next same =>
    cases same
    cases stepped
    obtain ⟨expanded, remaining, set, batch, errors, verdict⟩ :=
      @flushed_spec job resume (service.cache.putManyPinned _ rows
        budget cap job.storage _).1
    exact .stores flushing expanded remaining set batch errors verdict
  · next same =>
    cases same
    cases stepped
    exact .loses flushing rfl rfl rfl (rows_of_still (Resume.still resume))
      (Nat.succ_ne_zero _) id

open WarmJob in
/-- The tail of the batch is flushed, if there is one. -/
theorem WarmJob.tail_loads {job next : WarmJob} {effect : Effect}
    (tail : job.phase = .tail)
    (stepped : job.step env service .go = some (next, effect)) :
    job.Loads env service .go next effect := by
  have still : job.phase.isFlush = false := by
    rw [tail]
    rfl
  have checked : job.Passes job.checkErrors := passes_checkErrors
  have same : job.checkErrors.phase = job.phase := phase_checkErrors
  have loading : job.checkErrors.phase.isLoading = true := by
    rw [same, tail]
    rfl
  rw [← same] at still
  simp only [WarmJob.step, tail] at stepped
  split at stepped <;> cases stepped
  · refine .passes (checked.trans ⟨⟨[], (List.append_nil _).symm⟩, rfl, rfl,
      ?_, id, id, fun _ => ⟨loading, rfl⟩⟩) trivial (same ▸ still)
    rw [rows_flush, rows_of_still still]
  · exact .passes (checked.trans (passes_enter still rfl fun _ => loading))
      trivial (same ▸ still)

open WarmJob in
theorem WarmJob.assets_loads {job next : WarmJob} {event : Event}
    {effect : Effect} {stage : AssetStage} (staging : job.phase = .assets stage)
    (stepped : job.step env service event = some (next, effect)) :
    job.Loads env service event next effect := by
  have still : job.phase.isFlush = false := by
    rw [staging]
    rfl
  have loading : job.phase.isLoading = true := by
    rw [staging]
    rfl
  simp only [WarmJob.step, staging] at stepped
  obtain ⟨⟨progress, _⟩, moved, same⟩ := Option.map_eq_some_iff.mp stepped
  cases same
  have aside := AssetStage.step_aside moved
  cases progress with
  | going stage =>
      exact .passes (passes_enter still rfl fun _ => loading) aside still
  | staged =>
      exact .passes (passes_of_still still rfl rfl rfl rfl rfl id id
        fun _ => loading) aside still
  | stopped reason =>
      exact .passes (passes_assetsStopped still loading reason) aside still

open WarmJob in
theorem WarmJob.step_loads {job next : WarmJob} {event : Event}
    {effect : Effect}
    (stepped : job.step env service event = some (next, effect)) :
    job.Loads env service event next effect := by
  cases still : job.phase.isFlush with
  | true =>
    obtain ⟨rows, budget, cap, resume, flushing⟩ :=
      isFlush_eq_true.mp still
    exact flush_loads flushing stepped
  | false =>
    simp only [WarmJob.step] at stepped
    split at stepped
    -- The branches which only write other locals, or abort.
    all_goals try solve
      | (repeat' split at stepped) <;> first
          | contradiction
          | (cases stepped
             exact .passes (passes_of_still still rfl rfl rfl rfl rfl id id
               (by simp [RunPhase.isLoading, abort, enter, *])) trivial still)
    · -- A source which is no style.
      split at stepped <;> cases stepped
      exact .passes ⟨⟨_, rfl⟩, rfl, rfl, (rows_of_still rfl).trans
        (rows_of_still still).symm, id, id,
        fun loads => Bool.noConfusion loads⟩ trivial still
    · -- A style has been learned.
      repeat' split at stepped
      all_goals first | contradiction | cases stepped
      · exact .passes ⟨⟨_, rfl⟩, rfl, rfl, (rows_of_still rfl).trans
          (rows_of_still still).symm, id, id,
          fun loads => Bool.noConfusion loads⟩ trivial still
      · exact .passes (passes_abortExpansion still) trivial still
      · exact .passes (passes_abortExpansion still) trivial still
    · -- Every source is expanded.
      split at stepped <;> cases stepped
      · exact .passes (passes_abortExpansion still) trivial still
      · exact .passes (passes_enter still rfl fun loads =>
          Bool.noConfusion loads) trivial still
    · -- The hard cap.
      next gating =>
      split at stepped <;> cases stepped
      · exact .passes (passes_of_still still rfl rfl rfl rfl rfl id id
          fun loads => Bool.noConfusion loads) trivial still
      · exact .enumerates gating rfl rfl rfl ((rows_of_still rfl).trans
          (rows_of_still still).symm) rfl rfl
    · -- The enumeration.
      next enumerating =>
      have loading : job.phase.isLoading = true := by rw [enumerating]; rfl
      repeat' split at stepped
      all_goals cases stepped
      · exact .passes (passes_enter still rfl fun _ => loading) trivial still
      · exact .passes (passes_breakWith still (by decide) loading) trivial
          still
      · exact .passes (passes_breakWith still (by decide) loading) trivial
          still
      · exact .passes (passes_enter still rfl fun _ => loading) trivial still
    · -- A task is spawned.
      next permitting =>
      split at stepped
      · next yields =>
        cases stepped
        exact .spawns yields permitting
      · contradiction
    · -- No permit.
      next permitting =>
      have loading : job.phase.isLoading = true := by rw [permitting]; rfl
      repeat' split at stepped
      all_goals first | contradiction | cases stepped
      · exact .passes (passes_breakWith still (by decide) loading) trivial
          still
      · exact .passes (passes_breakWith still (by decide) loading) trivial
          still
    · -- A finished task while tiles are enumerated.
      next draining =>
      have loading : job.phase.isLoading = true := by rw [draining]; rfl
      split at stepped
      · next member =>
        exact loads_of_finished still loading member collects_drained stepped
      · contradiction
    · next flushing => exact absurd still (by simp [flushing, RunPhase.isFlush])
    · next flushing => exact absurd still (by simp [flushing, RunPhase.isFlush])
    · -- The enumeration has ended.
      next joining =>
      have loading : job.phase.isLoading = true := by rw [joining]; rfl
      split at stepped <;> cases stepped
      · exact .passes (passes_of_still still rfl rfl rfl rfl rfl id
          (fun done => WarmState.noConfusion done) fun _ => loading) trivial
          still
      · exact .passes (passes_enter still rfl fun _ => loading) trivial still
    · -- A finished task after the enumeration.
      next awaiting =>
      have loading : job.phase.isLoading = true := by rw [awaiting]; rfl
      split at stepped
      · next member =>
        exact loads_of_finished still loading member collects_joinedTask stepped
      · contradiction
    · next tail =>
      apply tail_loads tail
      simp only [WarmJob.step, tail]
      exact stepped
    · -- The counters.
      next counting =>
      have loading : job.phase.isLoading = true := by rw [counting]; rfl
      split at stepped <;> cases stepped
      · exact .passes (passes_counted_enter still loading rfl) trivial still
      · exact .passes (passes_counted_enter still loading rfl) trivial still
    · next staging =>
      apply assets_loads staging
      simp only [WarmJob.step, staging]
      exact stepped
    · -- Whether anything is replaced.
      next replacing =>
      have loading : job.phase.isLoading = true := by rw [replacing]; rfl
      split at stepped <;> cases stepped
      · exact .passes (passes_checkGeneration_enter still loading rfl) trivial
          still
      · have same : (job.checkGeneration service).phase.isFlush = false := by
          rw [phase_checkGeneration]
          exact still
        exact .passes (passes_checkGeneration.trans (passes_conclude same))
          trivial still
    · -- The last check of the generation.
      next guarded =>
      have loading : job.phase.isLoading = true := by rw [guarded]; rfl
      split at stepped <;> cases stepped
      · exact .passes (passes_checkGeneration_enter still loading rfl) trivial
          still
      · exact .passes (passes_checkGeneration_enter still loading rfl) trivial
          still
    · -- The promotion.
      cases stepped
      refine .passes (passes_of_still still rfl rfl rfl rfl rfl id ?_
        fun loads => Bool.noConfusion loads) trivial still
      dsimp only
      split
      · exact id
      · exact fun done => WarmState.noConfusion done
    · -- The promotion fails.
      cases stepped
      exact .passes (passes_of_still still rfl rfl rfl rfl rfl id
        (fun done => WarmState.noConfusion done)
        fun loads => Bool.noConfusion loads) trivial still
    · cases stepped
      exact .passes (passes_conclude still) trivial still

/-! ## How far a download is -/

/-- How much of the download is behind the driver: from 1 the enumeration has
yielded everything, from 2 every task has been joined, from 3 the tail of the
batch is no longer in it, and from 4 the errors have been checked for the last
time. -/
def RunPhase.level : RunPhase → Nat
  | .joining | .awaiting | .flushing _ _ _ .joining => 1
  | .tail => 2
  | .flushing _ _ _ .counting | .counting => 3
  | .assets _ | .replacing | .locking | .guarded _
  | .promoting _ _ _ _ => 4
  | _ => 0

/-- What the level says while the verdict is `done`. -/
structure WarmJob.Settled (job : WarmJob) : Prop where
  remaining : job.finalState = .done → 1 ≤ job.phase.level →
    job.remaining = []
  set : job.finalState = .done → 2 ≤ job.phase.level → job.set = []
  batch : job.finalState = .done → 3 ≤ job.phase.level → job.batch = []
  errors : job.finalState = .done → 4 ≤ job.phase.level → job.errors = 0

namespace WarmJob

variable {job next : WarmJob}

theorem settled_of_level (level : next.phase.level = 0) : next.Settled := by
  constructor <;> intro _ above <;> omega

theorem settled_of_failed (fails : next.finalState ≠ .done) :
    next.Settled := by
  constructor <;> intro done <;> exact absurd done fails

/-- A step which goes no further. -/
theorem Settled.kept (settled : job.Settled)
    (level : next.phase.level ≤ job.phase.level)
    (remaining : next.remaining = job.remaining) (set : next.set = job.set)
    (batch : next.batch = job.batch)
    (errors : 4 ≤ next.phase.level → next.errors = job.errors)
    (verdict : next.finalState = .done → job.finalState = .done) :
    next.Settled where
  remaining done above := remaining.trans
    (settled.remaining (verdict done) (above.trans level))
  set done above := set.trans
    (settled.set (verdict done) (above.trans level))
  batch done above := batch.trans
    (settled.batch (verdict done) (above.trans level))
  errors done above := (errors above).trans
    (settled.errors (verdict done) (above.trans level))

theorem Settled.enter (settled : job.Settled) {phase : RunPhase}
    (level : phase.level ≤ job.phase.level) : (job.enter phase).Settled :=
  settled.kept level rfl rfl rfl (fun _ => rfl) id

theorem settled_error :
    WarmJob.Settled { job with finalState := .error } :=
  settled_of_failed (by simp)

theorem Settled.checkErrors (settled : job.Settled) :
    job.checkErrors.Settled := by
  unfold WarmJob.checkErrors
  split
  · exact settled_error
  · exact settled

theorem Settled.checkComplete (settled : job.Settled) :
    job.checkComplete.Settled := by
  unfold WarmJob.checkComplete
  split
  · exact settled_error
  · exact settled

theorem Settled.checkGeneration (settled : job.Settled) :
    (job.checkGeneration service).Settled := by
  unfold WarmJob.checkGeneration
  split
  · exact settled_error
  · exact settled

theorem errors_of_checkErrors (done : job.checkErrors.finalState = .done) :
    job.checkErrors.errors = 0 := by
  unfold WarmJob.checkErrors at done ⊢
  split at done
  · cases done
  · next clean =>
    rw [if_neg clean]
    exact Nat.eq_zero_of_not_pos fun errors => clean ⟨done, errors⟩

theorem Settled.flushed (settled : job.Settled) {rows : List WarmRow}
    {budget cap : Int} {resume : Resume} {outcome : PutManyOutcome}
    (flushing : job.phase = .flushing rows budget cap resume) :
    (job.flushed resume outcome).Settled := by
  simp only [WarmJob.flushed]
  split
  · cases resume with
    | counting => exact settled_of_failed (by simp)
    | draining | joining =>
        exact settled_of_failed (by simp [cancelWith, breakWith])
  · refine settled.kept ?_ rfl rfl rfl (fun _ => rfl) id
    rw [flushing]
    cases resume <;> exact Nat.le_refl _

/-- A result which is collected after the enumeration. -/
theorem settled_of_collects {result : Option Fetched}
    (settled : job.Settled) (awaiting : job.phase = .awaiting)
    (collects : job.Collects next result)
    (level : next.phase.level ≤ 1) : next.Settled where
  remaining done _ := collects.remaining.trans
    (settled.remaining (collects.verdict done)
      (by simp [awaiting, RunPhase.level]))
  set _ above := by omega
  batch _ above := by omega
  errors _ above := by omega

theorem level_joinedTask (result : Option Fetched) :
    (job.joinedTask service result).phase.level ≤ 1 := by
  cases result with
  | none => exact Nat.le_refl _
  | some fetched =>
      simp only [joinedTask]
      split
      · cases fetched with
        | tile row | negative row =>
            simp only [accumulate]
            split <;> exact Nat.le_refl _
        | _ => exact Nat.le_refl _
      · exact Nat.le_refl _

theorem level_drained (result : Option Fetched) :
    (job.drained service result).finalState ≠ .done ∨
      (job.drained service result).phase.level = 0 := by
  cases result with
  | none => exact .inl (by simp [drained, cancelWith, breakWith])
  | some fetched =>
      cases fetched with
      | tile row | negative row =>
          simp only [drained, accumulate]
          split <;> exact .inr rfl
      | skipped | error => exact .inr rfl
      | capped | cancelled =>
          exact .inl (by simp [drained, accumulate, cancelWith, breakWith])

theorem verdict_assetsStopped (reason : AssetStop) :
    (job.assetsStopped reason).finalState ≠ .done := by
  unfold assetsStopped
  split
  · simp
  · cases reason <;> simp

theorem level_conclude : job.conclude.phase.level = 0 := by
  unfold conclude
  split <;> rfl

/-- The checks of the counters. -/
theorem Settled.counted (settled : job.Settled)
    (counting : job.phase = .counting) (phase : RunPhase) :
    ((job.checkErrors.checkComplete.checkGeneration service).enter
      phase).Settled := by
  have checked :
      (job.checkErrors.checkComplete.checkGeneration service).Settled :=
    settled.checkErrors.checkComplete.checkGeneration
  have level : 3 ≤ (job.checkErrors.checkComplete.checkGeneration
      service).phase.level := by
    rw [phase_checkGeneration, phase_checkComplete, phase_checkErrors,
      counting]
    exact Nat.le_refl _
  refine ⟨fun done _ => checked.remaining done (by omega),
    fun done _ => checked.set done (by omega),
    fun done _ => checked.batch done level, fun done _ => ?_⟩
  change (job.checkErrors.checkComplete.checkGeneration service).finalState =
    .done at done
  change (job.checkErrors.checkComplete.checkGeneration service).errors = 0
  unfold WarmJob.checkGeneration at done ⊢
  split at done
  · cases done
  · next current =>
    rw [if_neg current]
    unfold WarmJob.checkComplete at done ⊢
    split at done
    · cases done
    · next complete =>
      rw [if_neg complete]
      exact errors_of_checkErrors done

end WarmJob

open WarmJob in
theorem WarmJob.Settled.step {job next : WarmJob} {event : Event}
    {effect : Effect} (settled : job.Settled)
    (stepped : job.step env service event = some (next, effect)) :
    next.Settled := by
  simp only [WarmJob.step] at stepped
  split at stepped
  -- The branches to a phase of level 0.
  all_goals try solve
    | (repeat' split at stepped) <;> first
        | contradiction
        | (cases stepped; exact settled_of_level rfl)
  · -- The enumeration.
    split at stepped
    · next empty =>
      cases stepped
      exact ⟨fun _ _ => empty,
        fun _ above => absurd above (by simp [WarmJob.enter, RunPhase.level]),
        fun _ above => absurd above (by simp [WarmJob.enter, RunPhase.level]),
        fun _ above => absurd above (by simp [WarmJob.enter, RunPhase.level])⟩
    · repeat' split at stepped
      all_goals cases stepped
      · exact settled_of_failed (by simp [breakWith])
      · exact settled_of_failed (by simp [breakWith])
      · exact settled_of_level rfl
  · -- No permit.
    repeat' split at stepped
    all_goals first | contradiction | cases stepped
    · exact settled_of_failed (by simp [breakWith])
    · exact settled_of_failed (by simp [breakWith])
  · -- A finished task while tiles are enumerated.
    next id _ =>
    split at stepped
    · obtain ⟨result, _, same⟩ := Option.map_eq_some_iff.mp stepped
      cases same
      rcases @level_drained _ service (job.withoutTask id) result with
        fails | level
      · exact settled_of_failed fails
      · exact settled_of_level level
    · contradiction
  · -- A flush.
    next flushing =>
    cases stepped
    exact settled.flushed flushing
  · -- A flush which fails.
    next resume flushing =>
    cases stepped
    refine settled.kept ?_ rfl rfl rfl (fun above => ?_) id
    · rw [flushing]
      cases resume <;> exact Nat.le_refl _
    · cases resume <;>
        exact absurd above (by simp [Resume.phase, RunPhase.level])
  · -- The enumeration has ended.
    next joining =>
    split at stepped <;> cases stepped
    · exact settled_of_failed (by simp)
    · exact settled.enter (by simp [joining, RunPhase.level])
  · -- A finished task after the enumeration.
    next id awaiting =>
    split at stepped
    · obtain ⟨result, _, same⟩ := Option.map_eq_some_iff.mp stepped
      cases same
      have collects : (job.withoutTask id).Collects
          ((job.withoutTask id).joinedTask service result) result :=
        collects_joinedTask result
      have before : (job.withoutTask id).Settled :=
        ⟨settled.remaining, fun _ above => absurd above
          (by simp [withoutTask, awaiting, RunPhase.level]),
          settled.batch, settled.errors⟩
      exact settled_of_collects before awaiting collects
        (level_joinedTask result)
    · contradiction
  · next awaiting =>
    cases stepped
    exact settled.enter (by simp [awaiting, RunPhase.level])
  · -- Every task has been joined.
    next awaiting =>
    split at stepped
    · next empty =>
      cases stepped
      have remaining : job.finalState = .done → job.remaining = [] :=
        fun done => settled.remaining done (by simp [awaiting, RunPhase.level])
      exact ⟨fun done _ => remaining done, fun _ _ => empty,
        fun _ above => absurd above (by simp [WarmJob.enter, RunPhase.level]),
        fun _ above => absurd above (by simp [WarmJob.enter, RunPhase.level])⟩
    · contradiction
  · -- The tail of the batch.
    next tail =>
    have checked := settled.checkErrors
    have level : 2 ≤ job.checkErrors.phase.level := by
      simp [phase_checkErrors, tail, RunPhase.level]
    split at stepped
    · cases stepped
      exact ⟨fun done _ => checked.remaining done (by omega),
        fun done _ => checked.set done level, fun _ _ => rfl,
        fun _ above => absurd above (by simp [flush, RunPhase.level])⟩
    · next flushed =>
      cases stepped
      refine ⟨fun done _ => checked.remaining done (by omega),
        fun done _ => checked.set done level, fun done _ => ?_,
        fun _ above => absurd above (by simp [WarmJob.enter, RunPhase.level])⟩
      exact not_not.mp fun rows => flushed ⟨done, rows⟩
  · -- The counters.
    next counting =>
    split at stepped <;> cases stepped
    · exact settled.counted counting _
    · exact settled.counted counting _
  · -- The assets.
    next staging =>
    obtain ⟨⟨progress, _⟩, moved, same⟩ := Option.map_eq_some_iff.mp stepped
    cases same
    cases progress with
    | going stage => exact settled.enter (by simp [staging, RunPhase.level])
    | staged =>
        exact settled.kept (by simp [staging, RunPhase.level]) rfl rfl rfl
          (fun _ => rfl) id
    | stopped reason => exact settled_of_failed (verdict_assetsStopped reason)
  · -- Whether anything is replaced.
    next replacing =>
    have checked : (job.checkGeneration service).Settled :=
      settled.checkGeneration
    split at stepped <;> cases stepped
    · exact checked.enter (by
        simp [phase_checkGeneration, replacing, RunPhase.level])
    · exact settled_of_level level_conclude
  · next locking =>
    cases stepped
    exact settled.enter (by simp [locking, RunPhase.level])
  · -- The last check of the generation.
    next guarded =>
    have checked : (job.checkGeneration service).Settled :=
      settled.checkGeneration
    split at stepped <;> cases stepped
    · exact checked.enter (by
        simp [phase_checkGeneration, guarded, RunPhase.level])
    · exact settled_of_level rfl
  · cases stepped
    exact settled_of_level level_conclude

end ChartLocker.Warm
