import ChartLocker.Warm.Promoted

/-!
# The counters of a warm

A tile which a driver enumerates is pending until it is counted, and it is
counted at most once.  A job which ends `done` has counted all of them.
-/

namespace ChartLocker.Warm

open Library Cache Catalog

variable {Document : Type} {env : Environment Document}
  {service next : Service Document} {label : Label Document}

/-! ## The outcome of a flush -/

/-- A batch counts none of its rows twice, and no bytes which it frees. -/
theorem outcome_putManyPinned (cache : TileCache) (disk : DiskSpace)
    (rows : List WarmRow) (budget cap : Int) (regionId : Option String)
    (now : Int) :
    let outcome := (cache.putManyPinned disk rows budget cap regionId now).1
    outcome.stored ≤ rows.length ∧ 0 ≤ outcome.bytesAdded := by
  have counted : ∀ (taken : List WarmRow)
      (progress : TileCache.PutProgress),
      0 ≤ progress.reportedAdded →
      (taken.foldl (fun state row => state.insertRow regionId now row)
          progress).stored = progress.stored + taken.length ∧
        0 ≤ (taken.foldl (fun state row => state.insertRow regionId now row)
          progress).reportedAdded := by
    intro taken
    induction taken with
    | nil => exact fun progress start => ⟨rfl, start⟩
    | cons row taken induction =>
        intro progress start
        obtain ⟨stored, added⟩ := induction
          (progress.insertRow regionId now row)
          (add_nonneg start (le_max_right _ _))
        refine ⟨stored.trans ?_, added⟩
        simp only [TileCache.PutProgress.insertRow, List.length_cons]
        omega
  dsimp only
  unfold TileCache.putManyPinned
  dsimp only
  split
  · exact ⟨Nat.zero_le _, le_rfl⟩
  · dsimp only
    obtain ⟨taken, left, rfl, same⟩ := TileCache.putRows_eq_foldl budget cap
      cache.pinnedBytes (cache.tables.categoryBytes regionId) regionId now rows
      { tables := cache.tables
        added := 0
        reportedAdded := 0
        pinnedAdded := 0
        categoryAdded := 0
        stored := 0
        capped := false }
    rw [same]
    obtain ⟨stored, added⟩ := counted taken
      { tables := cache.tables
        added := 0
        reportedAdded := 0
        pinnedAdded := 0
        categoryAdded := 0
        stored := 0
        capped := false } le_rfl
    refine ⟨?_, added⟩
    rw [List.length_append]
    exact stored.le.trans (by simp)

/-! ## Counted tiles -/

namespace WarmJob

variable {job later last : WarmJob}

/-- The tiles which are enumerated and not yet counted. -/
def pending (job : WarmJob) : Nat :=
  job.remaining.length + job.set.length + job.rows.length

def tally (job : WarmJob) : Nat :=
  job.done + job.skipped + job.pending

/-- The counters have been checked, and the job ends `done` unless a later
step fails. -/
def Checked (job : WarmJob) : Prop :=
  match job.phase with
  | .assets _ | .replacing | .locking | .guarded _ | .promoting _ _ _ _
  | .unlocking _ | .cleaning _ | .finishing => job.finalState = .done
  | .releasing | .finished => job.state = .done
  | _ => False

/-- A step which counts tiles out of the pending ones. -/
structure Tallies (job later : WarmJob) : Prop where
  total : later.total = job.total
  tally : later.tally ≤ job.tally
  bytes : job.bytes ≤ later.bytes
  checked : later.Checked → later.done + later.skipped = later.total ∨
    (job.Checked ∧ later.done + later.skipped = job.done + job.skipped)

theorem Tallies.trans (first : job.Tallies later)
    (second : later.Tallies last) : job.Tallies last where
  total := second.total.trans first.total
  tally := second.tally.trans first.tally
  bytes := first.bytes.trans second.bytes
  checked holds := by
    have totals := second.total
    rcases second.checked holds with complete | ⟨before, same⟩
    · exact .inl complete
    · rcases first.checked before with complete | ⟨earlier, equal⟩
      · left
        omega
      · exact .inr ⟨earlier, same.trans equal⟩

/-- A step which counts nothing. -/
theorem tallies_of_pending (total : later.total = job.total)
    (done : later.done = job.done) (skipped : later.skipped = job.skipped)
    (bytes : later.bytes = job.bytes)
    (pending : later.pending ≤ job.pending)
    (checked : later.Checked → job.Checked) : job.Tallies later where
  total := total
  tally := by
    unfold tally
    omega
  bytes := bytes.ge
  checked holds := .inr ⟨checked holds, by omega⟩

/-- A step between two phases which are not flushes. -/
theorem tallies_of_still (still : job.phase.isFlush = false)
    (after : later.phase.isFlush = false) (total : later.total = job.total)
    (done : later.done = job.done) (skipped : later.skipped = job.skipped)
    (bytes : later.bytes = job.bytes)
    (remaining : later.remaining = job.remaining)
    (set : later.set = job.set) (batch : later.batch = job.batch)
    (checked : later.Checked → job.Checked) : job.Tallies later := by
  apply tallies_of_pending total done skipped bytes _ checked
  unfold pending
  rw [remaining, set, rows_of_still still, rows_of_still after, batch]

theorem Tallies.refl (job : WarmJob) : job.Tallies job :=
  ⟨rfl, le_rfl, le_rfl, fun holds => .inr ⟨holds, rfl⟩⟩

/-- The verdict of a job becomes an error. -/
theorem tallies_error : job.Tallies { job with finalState := .error } := by
  refine tallies_of_pending rfl rfl rfl rfl le_rfl fun holds => ?_
  unfold Checked at holds ⊢
  split at holds
  all_goals first
    | cases holds
    | simp_all

theorem tallies_checkErrors : job.Tallies job.checkErrors := by
  unfold checkErrors
  split
  · exact tallies_error
  · exact .refl job

theorem tallies_checkComplete : job.Tallies job.checkComplete := by
  unfold checkComplete
  split
  · exact tallies_error
  · exact .refl job

theorem tallies_checkGeneration :
    job.Tallies (job.checkGeneration service) := by
  unfold checkGeneration
  split
  · exact tallies_error
  · exact .refl job

/-- What becomes of the counters when a task has been joined. -/
structure TalliesTask (job later : WarmJob) : Prop where
  total : later.total = job.total
  tally : later.tally ≤ job.done + job.skipped + job.remaining.length +
    job.set.length + job.batch.length + 1
  bytes : later.bytes = job.bytes
  checked : ¬ later.Checked

theorem talliesTask_of_same (still : later.phase.isFlush = false)
    (total : later.total = job.total) (done : later.done = job.done)
    (skipped : later.skipped = job.skipped) (bytes : later.bytes = job.bytes)
    (remaining : later.remaining = job.remaining)
    (set : later.set = job.set)
    (batch : later.batch.length ≤ job.batch.length + 1)
    (checked : ¬ later.Checked) : job.TalliesTask later where
  total := total
  tally := by
    unfold tally pending
    rw [rows_of_still still, done, skipped, remaining, set]
    omega
  bytes := bytes
  checked := checked

theorem not_checked_resume {resume : Resume}
    (phase : later.phase = resume.phase) : ¬ later.Checked := by
  unfold Checked
  rw [phase]
  cases resume <;> exact id

theorem talliesTask_accumulate (resume : Resume) (fetched : Fetched) :
    job.TalliesTask (job.accumulate service resume fetched) := by
  cases fetched with
  | tile row | negative row =>
      simp only [accumulate]
      split
      · refine ⟨rfl, ?_, rfl, id⟩
        unfold tally pending
        rw [rows_flush]
        simp only [flush, List.length_append, List.length_singleton]
        omega
      · exact talliesTask_of_same (Resume.still resume) rfl rfl rfl rfl rfl rfl
          (by simp) (not_checked_resume rfl)
  | skipped =>
      refine ⟨rfl, ?_, rfl, not_checked_resume rfl⟩
      unfold tally pending
      rw [rows_of_still (Resume.still resume)]
      simp only [accumulate]
      omega
  | error =>
      exact talliesTask_of_same (Resume.still resume) rfl rfl rfl rfl rfl rfl
        (Nat.le_succ _) (not_checked_resume rfl)
  | capped | cancelled =>
      exact talliesTask_of_same rfl rfl rfl rfl rfl rfl rfl (Nat.le_succ _) id

theorem talliesTask_drained (result : Option Fetched) :
    job.TalliesTask (job.drained service result) := by
  cases result with
  | some fetched => exact talliesTask_accumulate .draining fetched
  | none =>
      exact talliesTask_of_same rfl rfl rfl rfl rfl rfl rfl (Nat.le_succ _) id

theorem talliesTask_joinedTask (result : Option Fetched) :
    job.TalliesTask (job.joinedTask service result) := by
  cases result with
  | some fetched =>
      simp only [joinedTask]
      split
      · exact talliesTask_accumulate .joining fetched
      · exact talliesTask_of_same rfl rfl rfl rfl rfl rfl rfl (Nat.le_succ _)
          id
  | none =>
      exact talliesTask_of_same rfl rfl rfl rfl rfl rfl rfl (Nat.le_succ _) id

/-- The task which has been joined was pending. -/
theorem tallies_of_task {id : Nat} (still : job.phase.isFlush = false)
    (member : id ∈ job.set)
    (task : (job.withoutTask id).TalliesTask later) : job.Tallies later where
  total := task.total
  tally := by
    have fewer : (job.withoutTask id).set.length < job.set.length := by
      apply List.length_filter_lt_length_iff_exists.mpr
      exact ⟨id, member, by simp⟩
    have bound := task.tally
    unfold tally pending at bound ⊢
    rw [rows_of_still still]
    simp only [withoutTask] at bound fewer
    omega
  bytes := task.bytes.ge
  checked holds := absurd holds task.checked

/-- The rows of a flush which are stored were pending. -/
theorem tallies_flushed {rows : List WarmRow} {budget cap : Int}
    {resume : Resume} {outcome : PutManyOutcome}
    (flushing : job.phase = .flushing rows budget cap resume)
    (stored : outcome.stored ≤ rows.length) (added : 0 ≤ outcome.bytesAdded) :
    job.Tallies (job.flushed resume outcome) := by
  have before : job.rows.length = job.batch.length + rows.length := by
    unfold WarmJob.rows
    rw [flushing, List.length_append]
  have after := (@flushed_spec job resume outcome).2.2.2.1
  have counters : (job.flushed resume outcome).total = job.total ∧
      (job.flushed resume outcome).done = job.done + outcome.stored ∧
      (job.flushed resume outcome).skipped = job.skipped ∧
      (job.flushed resume outcome).bytes = job.bytes + outcome.bytesAdded ∧
      (job.flushed resume outcome).remaining = job.remaining ∧
      (job.flushed resume outcome).set = job.set ∧
      ¬ (job.flushed resume outcome).Checked := by
    unfold flushed
    dsimp only
    split
    · cases resume <;> exact ⟨rfl, rfl, rfl, rfl, rfl, rfl, id⟩
    · exact ⟨rfl, rfl, rfl, rfl, rfl, rfl, not_checked_resume rfl⟩
  obtain ⟨total, done, skipped, bytes, remaining, set, unchecked⟩ := counters
  refine ⟨total, ?_, by omega, fun holds => absurd holds unchecked⟩
  unfold tally pending
  rw [done, skipped, remaining, set, after]
  omega

theorem tallies_conclude (still : job.phase.isFlush = false)
    (checked : job.finalState = .done → job.Checked) :
    job.Tallies job.conclude := by
  unfold conclude
  split
  · exact tallies_of_still still rfl rfl rfl rfl rfl rfl rfl rfl checked
  · next failed =>
    exact tallies_of_still still rfl rfl rfl rfl rfl rfl rfl rfl
      fun done => absurd done failed

theorem tallies_assetsStopped {stage : AssetStage}
    (staging : job.phase = .assets stage) (reason : AssetStop) :
    job.Tallies (job.assetsStopped reason) := by
  have still : job.phase.isFlush = false := by rw [staging]; rfl
  unfold assetsStopped
  split
  · exact tallies_of_still still rfl rfl rfl rfl rfl rfl rfl rfl
      fun done => WarmState.noConfusion done
  · cases reason <;>
      exact tallies_of_still still rfl rfl rfl rfl rfl rfl rfl rfl
        fun done => WarmState.noConfusion done

/-- The checks after the tail of the batch. -/
theorem tallies_counting (counting : job.phase = .counting)
    (phase : RunPhase) (after : phase.isFlush = false)
    (later : ∀ checked : WarmJob, (checked.enter phase).Checked →
      checked.finalState = .done) :
    job.Tallies ((job.checkErrors.checkComplete.checkGeneration
      service).enter phase) := by
  have checks : job.Tallies
      (job.checkErrors.checkComplete.checkGeneration service) :=
    tallies_checkErrors.trans
      (tallies_checkComplete.trans tallies_checkGeneration)
  have still : (job.checkErrors.checkComplete.checkGeneration
      service).phase.isFlush = false := by
    rw [phase_checkGeneration, phase_checkComplete, phase_checkErrors,
      counting]
    rfl
  refine ⟨checks.total, ?_, checks.bytes, fun holds => .inl ?_⟩
  · refine le_trans (le_of_eq ?_) checks.tally
    unfold tally pending
    rw [rows_of_still still, rows_of_still after]
    rfl
  · have done := later _ holds
    change (job.checkErrors.checkComplete.checkGeneration service).done +
      (job.checkErrors.checkComplete.checkGeneration service).skipped =
        (job.checkErrors.checkComplete.checkGeneration service).total
    unfold checkGeneration at done ⊢
    split at done
    · cases done
    · next current =>
      rw [if_neg current]
      unfold checkComplete at done ⊢
      split at done
      · cases done
      · next complete =>
        rw [if_neg complete]
        exact not_not.mp fun short => complete ⟨done, short⟩

end WarmJob

theorem WarmJob.length_enumeration {job : WarmJob} :
    (job.enumeration env).length =
      tileCount env job.expanded job.bboxes job.zmin job.zmax := by
  unfold enumeration tileCount
  induction job.expanded with
  | nil => rfl
  | cons source sources induction =>
      rw [List.flatMap_cons, List.flatMap_cons, List.length_append,
        List.sum_append, induction]
      congr 1
      unfold sourceTiles
      simp only [List.length_flatMap, List.length_map, length_tilesIter]

open WarmJob in
/-- The rows of a flush are written, or lost. -/
theorem WarmJob.flush_tallies {job later : WarmJob} {event : Event}
    {effect : Effect} {rows : List WarmRow} {budget cap : Int}
    {resume : Resume}
    (flushing : job.phase = .flushing rows budget cap resume)
    (stepped : job.step env service event = some (later, effect)) :
    job.Tallies later := by
  simp only [WarmJob.step, flushing] at stepped
  split at stepped
  all_goals first | contradiction | skip
  · next same =>
    cases same
    cases stepped
    obtain ⟨stored, added⟩ := outcome_putManyPinned service.cache _ rows
      budget cap job.storage _
    exact tallies_flushed flushing stored added
  · next same =>
    cases same
    cases stepped
    refine tallies_of_pending rfl rfl rfl rfl ?_ fun holds =>
      absurd holds (not_checked_resume rfl)
    unfold pending
    rw [rows_of_still (Resume.still resume)]
    have before : job.rows.length = job.batch.length + rows.length := by
      unfold WarmJob.rows
      rw [flushing, List.length_append]
    dsimp only
    omega

open WarmJob in
/-- The generation is checked again once the counters have been checked. -/
theorem WarmJob.checked_of_checkGeneration {job : WarmJob}
    (counted : job.phase = .replacing ∨ ∃ holder, job.phase = .guarded holder)
    (done : (job.checkGeneration service).finalState = .done) :
    (job.checkGeneration service).Checked := by
  unfold Checked
  rw [phase_checkGeneration]
  rcases counted with phase | ⟨holder, phase⟩
  · rw [phase]
    exact done
  · rw [phase]
    exact done

open WarmJob in
/-- Every step but the one which corrects the total. -/
theorem WarmJob.step_tallies {job later : WarmJob} {event : Event}
    {effect : Effect}
    (stepped : job.step env service event = some (later, effect)) :
    job.Tallies later ∨
      (job.phase = .gating ∧ later.done = job.done ∧
        later.skipped = job.skipped ∧ later.bytes = job.bytes ∧
        ¬ later.Checked ∧ (later.pending = job.pending ∨
          (later.set = job.set ∧ later.batch = job.batch ∧
            later.phase = .enumerating ∧
            later.remaining.length = later.total))) := by
  cases still : job.phase.isFlush with
  | true =>
    obtain ⟨rows, budget, cap, resume, flushing⟩ := isFlush_eq_true.mp still
    exact .inl (flush_tallies flushing stepped)
  | false =>
    simp only [WarmJob.step] at stepped
    split at stepped
    -- The branches which only write other locals.
    all_goals try solve
      | (repeat' split at stepped) <;> first
          | contradiction
          | (cases stepped
             exact .inl (tallies_of_still still rfl rfl rfl rfl rfl rfl rfl
               rfl fun holds => by
                 simp_all [Checked, enter, abort, abortExpansion, breakWith]))
    · -- The total is corrected.
      next gating =>
      right
      split at stepped <;> cases stepped
      · have failed : ∀ counted : WarmJob, ¬ counted.abort.Checked :=
          fun _ holds => WarmState.noConfusion holds
        refine ⟨gating, rfl, rfl, rfl, failed _, .inl ?_⟩
        unfold pending
        rw [rows_of_still still, rows_of_still rfl]
        rfl
      · exact ⟨gating, rfl, rfl, rfl, id, .inr ⟨rfl, rfl, rfl,
          length_enumeration⟩⟩
    · -- A task is spawned.
      split at stepped
      · next yields =>
        cases stepped
        refine .inl (tallies_of_pending rfl rfl rfl rfl ?_ False.elim)
        unfold pending
        rw [rows_of_still still, rows_of_still rfl, yields,
          List.length_cons, List.length_cons]
        dsimp only
        omega
      · contradiction
    · -- A finished task while tiles are enumerated.
      split at stepped
      · next member =>
        obtain ⟨result, found, same⟩ := Option.map_eq_some_iff.mp stepped
        cases same
        exact .inl (tallies_of_task still member (talliesTask_drained result))
      · contradiction
    · next flushing => exact absurd still (by simp [flushing, RunPhase.isFlush])
    · next flushing => exact absurd still (by simp [flushing, RunPhase.isFlush])
    · -- A finished task after the enumeration.
      split at stepped
      · next member =>
        obtain ⟨result, found, same⟩ := Option.map_eq_some_iff.mp stepped
        cases same
        exact .inl (tallies_of_task still member
          (talliesTask_joinedTask result))
      · contradiction
    · -- The tail of the batch.
      next tail =>
      have checked : job.Tallies job.checkErrors := tallies_checkErrors
      have same : job.checkErrors.phase.isFlush = false := by
        rw [phase_checkErrors]
        exact still
      split at stepped <;> cases stepped
      · refine .inl (checked.trans
          (tallies_of_pending rfl rfl rfl rfl ?_ False.elim))
        unfold pending
        rw [rows_flush, rows_of_still same]
        rfl
      · exact .inl (checked.trans (tallies_of_still same rfl rfl rfl rfl rfl
          rfl rfl rfl False.elim))
    · -- The counters.
      next counting =>
      split at stepped <;> cases stepped
      · exact .inl (tallies_counting counting _ rfl fun _ holds => holds)
      · exact .inl (tallies_counting counting _ rfl fun _ holds => holds)
    · -- The assets.
      next staging =>
      obtain ⟨⟨progress, _⟩, moved, same⟩ := Option.map_eq_some_iff.mp stepped
      cases same
      have checked : job.finalState = .done → job.Checked := by
        unfold Checked
        rw [staging]
        exact id
      left
      cases progress with
      | going stage =>
          exact tallies_of_still still rfl rfl rfl rfl rfl rfl rfl rfl checked
      | staged =>
          exact tallies_of_still still rfl rfl rfl rfl rfl rfl rfl rfl checked
      | stopped reason => exact tallies_assetsStopped staging reason
    · -- Whether anything is replaced.
      next replacing =>
      have current : job.Tallies (job.checkGeneration service) :=
        tallies_checkGeneration
      have same : (job.checkGeneration service).phase.isFlush = false := by
        rw [phase_checkGeneration]
        exact still
      left
      split at stepped <;> cases stepped
      · exact current.trans (tallies_of_still same rfl rfl rfl rfl rfl rfl rfl
          rfl (checked_of_checkGeneration (.inl replacing)))
      · exact current.trans (tallies_conclude same
          (checked_of_checkGeneration (.inl replacing)))
    · -- The last check of the generation.
      next guarded =>
      have current : job.Tallies (job.checkGeneration service) :=
        tallies_checkGeneration
      have same : (job.checkGeneration service).phase.isFlush = false := by
        rw [phase_checkGeneration]
        exact still
      left
      split at stepped <;> cases stepped
      · exact current.trans (tallies_of_still same rfl rfl rfl rfl rfl rfl rfl
          rfl (checked_of_checkGeneration (.inr ⟨_, guarded⟩)))
      · exact current.trans (tallies_of_still same rfl rfl rfl rfl rfl rfl rfl
          rfl (checked_of_checkGeneration (.inr ⟨_, guarded⟩)))
    · -- The promotion is over.
      next unlocking =>
      cases stepped
      refine .inl (tallies_conclude still ?_)
      unfold Checked
      rw [unlocking]
      exact id

/-! ## The counters of every job -/

/-- What the counters of a job say at every moment. -/
structure WarmJob.Counted (job : WarmJob) : Prop where
  bound : job.tally ≤ job.total
  early : job.phase.stage ≤ 3 → job.tally = 0
  bytes : 0 ≤ job.bytes
  checked : job.Checked → job.done + job.skipped = job.total
  ended : job.Ended

section Counted

variable {job later : WarmJob}

theorem WarmJob.Counted.done_add_skipped_le (counted : job.Counted) :
    job.done + job.skipped ≤ job.total :=
  (Nat.le_add_right _ job.pending).trans counted.bound

theorem WarmJob.Counted.done_add_skipped (counted : job.Counted)
    (done : job.state = .done) : job.done + job.skipped = job.total := by
  apply counted.checked
  unfold WarmJob.Checked
  rcases counted.ended done with phase | phase
  · rw [phase]
    exact done
  · rw [phase]
    exact done

open WarmJob in
theorem WarmJob.Counted.step {event : Event} {effect : Effect}
    (counted : job.Counted)
    (stepped : job.step env service event = some (later, effect)) :
    later.Counted := by
  have ended := counted.ended.step stepped
  rcases WarmJob.step_tallies stepped with tallies | ⟨gating, done, skipped,
    bytes, unchecked, enumerated⟩
  · have total := tallies.total
    have tally := tallies.tally
    have bound := counted.bound
    refine ⟨by omega, fun early => ?_, counted.bytes.trans tallies.bytes,
      fun holds => ?_, ended⟩
    · have before := counted.early
        ((WarmJob.step_stage stepped).1.trans early)
      omega
    · rcases tallies.checked holds with complete | ⟨earlier, same⟩
      · exact complete
      · have complete := counted.checked earlier
        omega
  · have none : job.tally = 0 := counted.early (by rw [gating]; decide)
    have left : later.tally ≤ later.total ∧
        (later.phase.stage ≤ 3 → later.tally = 0) := by
      unfold tally pending at none ⊢
      rcases enumerated with pending | ⟨set, batch, phase, remaining⟩
      · unfold WarmJob.pending at pending
        exact ⟨by omega, fun _ => by omega⟩
      · have rows : job.rows = job.batch := rows_of_still (by rw [gating]; rfl)
        have moved : later.rows = later.batch :=
          rows_of_still (by rw [phase]; rfl)
        rw [rows] at none
        rw [moved, set, batch, phase]
        exact ⟨by omega, fun early => absurd early (by decide)⟩
    exact ⟨left.1, left.2, bytes ▸ counted.bytes,
      fun holds => absurd holds unchecked, ended⟩

theorem counted_job (request : WarmRequest) (resolved : List ChartSource)
    (total : Nat) : (request.job service resolved total).Counted where
  bound := Nat.zero_le _
  early _ := rfl
  bytes := le_rfl
  checked := False.elim
  ended done := by cases done

theorem counted_of_reachable (reached : (serviceMachine env).Reachable service)
    {order : Nat} (found : service.warmJobs order = some job) :
    job.Counted := by
  have all : ∀ order job, service.warmJobs order = some job →
      job.Counted := by
    apply reached.invariant (motive := fun state => ∀ order job,
      state.warmJobs order = some job → job.Counted)
    · rintro state ⟨_, _, _, _, _, _, rfl⟩ order job found
      cases found
    · intro state label next counted stepped order job found
      change Warm.step env state label = some next at stepped
      cases job_origin stepped found with
      | flagged cancel others earlier =>
          have before := counted order _ earlier
          exact ⟨before.bound, before.early, before.bytes, before.checked,
            before.ended⟩
      | moves earlier advanced => exact (counted order _ earlier).step advanced
      | registered _ _ _ _ => exact counted_job _ _ _
  exact all order job found

end Counted

end ChartLocker.Warm
