import ChartLocker.Warm.Staging

/-!
# What a finished download covers

While the verdict of a job is `done` and it has counted no error, every tile
of its enumeration is still to be enumerated, in a task, in the batch, or a
member of the staging region; and the staging region has no other members.
-/

namespace ChartLocker.Warm

open Library Cache Catalog

variable {Document : Type} {env : Environment Document}
  {service next : Service Document} {label : Label Document}

/-! ## Results of tile tasks -/

def TilePhase.result : TilePhase → Option Fetched
  | .returning result => some result
  | .finished result => result
  | _ => none

/-- A step gives a task no result, the result it had, or a new one. -/
theorem TileTask.result_cases {task moved : TileTask} {event : Event}
    {effect : Effect} {result : Fetched}
    (stepped : task.step env service event = some (moved, effect))
    (has : moved.phase.result = some result) :
    task.phase.result = some result ∨ moved.phase = .returning result := by
  cases phase : moved.phase with
  | returning other =>
      rw [phase] at has
      cases has
      exact .inr rfl
  | finished other =>
      rw [phase] at has
      cases has
      left
      simp only [TileTask.step, TileTask.enter, TileTask.missed] at stepped
      split at stepped
      all_goals try solve
        | (repeat' split at stepped) <;> first
            | contradiction
            | (cases stepped; cases phase)
      · next returned =>
        cases stepped
        cases phase
        rw [returned]
        rfl
  | _ =>
      rw [phase] at has
      cases has

/-- A task skips its tile after a pin which has succeeded. -/
theorem TileTask.skips {task moved : TileTask} {event : Event}
    {effect : Effect}
    (stepped : task.step env service event = some (moved, effect))
    (has : moved.phase.result = some .skipped) :
    task.phase.result = some .skipped ∨ ∃ budgets now,
      effect = .call (.pinIfFreshCapped task.key now env.freshSecs
        env.negativeTtlSecs budgets task.storage) ∧
      (service.cache.pinIfFreshCapped task.key now env.freshSecs
        env.negativeTtlSecs budgets task.storage).1 = .pinned := by
  rcases result_cases stepped has with before | returning
  · exact .inl before
  · rcases returning_cases stepped returning with
      ⟨recheck, budgets, disk, now, calling, rfl, outcome⟩ |
      ⟨response, now, _, _, answer⟩ | failed | cancelled
    · simp only [TileTask.step, calling, Option.some.injEq, Prod.mk.injEq]
        at stepped
      obtain ⟨_, pinned⟩ | capped := outcome
      · exact .inr ⟨budgets, now, stepped.2.symm, pinned⟩
      · cases capped
    · unfold warmAnswer at answer
      repeat' split at answer
      all_goals cases answer
    · cases failed
    · cases cancelled

/-- The row of a result is a row of the tile. -/
theorem TileTask.row_key {task moved : TileTask} {event : Event}
    {effect : Effect} {row : WarmRow}
    (stepped : task.step env service event = some (moved, effect))
    (member : row ∈ resultRows moved.phase.result) :
    row ∈ resultRows task.phase.result ∨ row.key = task.key := by
  cases has : moved.phase.result with
  | none =>
      rw [has] at member
      cases member
  | some result =>
      rcases result_cases stepped has with before | returning
      · rw [before, ← has]
        exact .inl member
      · right
        rw [has] at member
        rcases returning_cases stepped returning with
          ⟨_, _, _, _, _, _, ⟨rfl, _⟩ | rfl⟩ | ⟨response, now, _, _, rfl⟩ |
          rfl | rfl
        · cases member
        · cases member
        · unfold warmAnswer at member
          repeat' split at member
          all_goals first
            | (cases List.mem_singleton.mp member; rfl)
            | cases member
        · cases member
        · cases member

/-! ## The invariant -/

/-- Where a tile is which is not stored yet. -/
def WarmJob.Holds (service : Service Document) (job : WarmJob)
    (key : TileKey) : Prop :=
  key ∈ job.remaining.map Prod.snd ∨ key ∈ job.rows.map WarmRow.key ∨
    ∃ id ∈ job.set, ∃ task, service.workers id = some (.tile task) ∧
      task.key = key

/-- The invariant of a download. -/
structure WarmJob.Covers (env : Environment Document)
    (service : Service Document) (order : Nat) (job : WarmJob) : Prop where
  remaining : ∀ key ∈ job.remaining.map Prod.snd, key ∈ job.keys env
  rows : ∀ key ∈ job.rows.map WarmRow.key, key ∈ job.keys env
  set : ∀ id ∈ job.set, ∃ task, service.workers id = some (.tile task) ∧
    task.order = order
  settled : job.Settled
  staged : ∀ staging key, job.storage = some staging →
    ⟨staging, key⟩ ∈ service.cache.tables.regionTiles → key ∈ job.keys env
  skipped : job.finalState = .done → ∀ staging id task,
    job.storage = some staging → id ∈ job.set →
    service.workers id = some (.tile task) →
    task.phase.result = some .skipped →
    ⟨staging, task.key⟩ ∈ service.cache.tables.regionTiles
  owed : job.phase.isLoading = true → job.finalState = .done →
    job.errors = 0 → ∀ staging key, job.storage = some staging →
    key ∈ job.keys env → job.Holds service key ∨
      ⟨staging, key⟩ ∈ service.cache.tables.regionTiles

/-- The invariant of a tile task. -/
structure TileTask.Serves (env : Environment Document)
    (service : Service Document) (task : TileTask) : Prop where
  row : ∀ row ∈ resultRows task.phase.result, row.key = task.key
  key : ∃ job, service.warmJobs task.order = some job ∧
    task.storage = job.storage ∧ task.key ∈ job.keys env

structure Covering (env : Environment Document)
    (service : Service Document) : Prop where
  job : ∀ order job, service.warmJobs order = some job →
    job.Covers env service order
  task : ∀ id task, service.workers id = some (.tile task) →
    task.Serves env service

/-! ## What a step leaves of a download -/

section Frames

variable {order : Nat} {job later : WarmJob}

theorem WarmJob.keys_congr (spec : later.toRunSpec = job.toRunSpec)
    (expanded : later.expanded = job.expanded) :
    later.keys env = job.keys env := by
  unfold WarmJob.keys WarmJob.enumeration
  rw [spec, expanded]

theorem WarmJob.Extends.keys (grown : job.Extends later) {key : TileKey}
    (member : key ∈ job.keys env) : key ∈ later.keys env := by
  obtain ⟨more, expanded⟩ := grown.expanded
  unfold WarmJob.keys WarmJob.enumeration at member ⊢
  rw [grown.spec, expanded, List.flatMap_append, List.map_append]
  exact List.mem_append_left _ member

theorem work_calls {id : Nat} {event : Event} {worker : Worker}
    {moved : Option Worker} {op : CacheOp}
    (stepped : step env service (.work id event) = some next)
    (found : service.workers id = some worker)
    (advanced : worker.step env service event = some (moved, .call op)) :
    next.cache = op.apply service.cache := by
  obtain ⟨other, present, ⟨_, _⟩, going, performed⟩ := work_eq_some.mp stepped
  obtain rfl := Option.some.inj (found.symm.trans present)
  cases advanced.symm.trans going
  exact (performed_of_perform performed).cache

theorem drive_performed {event : Event} {effect : Effect}
    (stepped : step env service (.drive order event) = some next)
    (found : service.warmJobs order = some job)
    (advanced : job.step env service event = some (later, effect)) :
    Performed (service.setJob order (some later)) effect next := by
  obtain ⟨other, present, ⟨_, _⟩, going, performed⟩ :=
    drive_eq_some.mp stepped
  obtain rfl := Option.some.inj (found.symm.trans present)
  cases advanced.symm.trans going
  exact performed_of_perform performed

/-- The tasks of a job stay until its own driver takes them. -/
theorem Covering.tasks (covering : Covering env service)
    (stepped : step env service label = some next)
    (running : label.isBoot = false)
    (found : service.warmJobs order = some job) {id : Nat}
    (member : id ∈ job.set) :
    (∃ task after, service.workers id = some (.tile task) ∧
      next.workers id = some (.tile after) ∧ task.order = order ∧
      task.Goes after) ∨
    ∃ event moved, label = .drive order event ∧
      job.step env service event = some (moved, .take id) := by
  obtain ⟨task, present, own⟩ := (covering.job order job found).set id member
  rcases tile_after stepped running present with ⟨after, kept, goes⟩ |
    ⟨other, event, otherJob, moved, rfl, otherFound, taken⟩
  · exact .inl ⟨task, after, present, kept, own, goes⟩
  · right
    have same : other = order := by
      generalize effect : Effect.take id = taking at taken
      cases WarmJob.step_loads taken with
      | passes passes aside still =>
          subst effect
          obtain ⟨asset, other⟩ := aside
          cases present.symm.trans other
      | collects loading otherMember =>
          cases effect
          obtain ⟨_, again, otherOwn⟩ :=
            (covering.job other otherJob otherFound).set id otherMember
          cases present.symm.trans again
          exact otherOwn.symm.trans own
      | _ => cases effect
    subst same
    obtain rfl := Option.some.inj (found.symm.trans otherFound)
    exact ⟨event, moved, rfl, taken⟩

/-- A skipped tile is a member of the staging region after the step, too. -/
theorem Covering.skips (covering : Covering env service)
    (named : Named service) (stepped : step env service label = some next)
    (running : label.isBoot = false)
    (found : service.warmJobs order = some job)
    (done : job.finalState = .done) {staging : String} {id : Nat}
    {task : TileTask} (stored : job.storage = some staging)
    (member : id ∈ job.set) (after : next.workers id = some (.tile task))
    (skipped : task.phase.result = some .skipped) :
    ⟨staging, task.key⟩ ∈ next.cache.tables.regionTiles := by
  have covers := covering.job order job found
  have kept : ∀ key, ⟨staging, key⟩ ∈ service.cache.tables.regionTiles →
      ⟨staging, key⟩ ∈ next.cache.tables.regionTiles := by
    intro key joined
    refine (staged_kept named stepped running found stored joined).resolve_right
      ?_
    rintro ⟨disk, now, rfl, cleaning | ⟨holder, cap, regions, position,
      promoting⟩⟩
    · exact (named.own order job found).fails cleaning done
    · have empty := covers.settled.set done
        (by simp [promoting, RunPhase.level])
      rw [empty] at member
      cases member
  rcases tile_origin stepped after with present | ⟨event, earlier, effect, rfl,
    present, advanced⟩ | ⟨_, _, _, _, _, _, _, free⟩
  · exact kept _ (covers.skipped done staging id task stored member present
      skipped)
  · rw [(TileTask.step_keeps advanced).2.2.1]
    rcases TileTask.skips advanced skipped with before |
      ⟨budgets, now, rfl, pinned⟩
    · exact kept _ (covers.skipped done staging id earlier stored member
        present before)
    · obtain ⟨holder, otherFound, storage, _⟩ :=
        (covering.task id earlier present).key
      obtain ⟨_, again, own⟩ := covers.set id member
      cases present.symm.trans again
      rw [own] at otherFound
      obtain rfl := Option.some.inj (found.symm.trans otherFound)
      have called := work_calls stepped present
        (Option.map_eq_some_iff.mpr ⟨_, advanced, rfl⟩)
      rw [called]
      rw [storage, stored] at pinned ⊢
      exact pinIfFreshCapped_joins pinned
  · obtain ⟨_, again, _⟩ := covers.set id member
    cases free.symm.trans again

/-- What joins a tile to the staging region takes it from the download. -/
theorem Covering.staged (covering : Covering env service)
    (named : Named service) (stepped : step env service label = some next)
    (running : label.isBoot = false)
    (found : service.warmJobs order = some job) {staging : String}
    {key : TileKey} (stored : job.storage = some staging)
    (joined : ⟨staging, key⟩ ∈ next.cache.tables.regionTiles) :
    key ∈ job.keys env := by
  have covers := covering.job order job found
  rcases staged_origin named stepped running found stored joined with
    before | ⟨rows, budget, cap, resume, flushing, row, member, rfl⟩ |
    ⟨id, task, present, own, rfl⟩
  · exact covers.staged staging key stored before
  · apply covers.rows
    simp only [WarmJob.rows, flushing]
    exact List.mem_map_of_mem (List.mem_append_right _ member)
  · obtain ⟨holder, otherFound, _, member⟩ :=
      (covering.task id task present).key
    rw [own] at otherFound
    obtain rfl := Option.some.inj (found.symm.trans otherFound)
    exact member

/-- A step which is not one of its own driver. -/
theorem WarmJob.Covers.flagged (covering : Covering env service)
    (named : Named service) (stepped : Warm.step env service label = some next)
    (running : label.isBoot = false)
    (found : service.warmJobs order = some job)
    (others : ∀ event, label ≠ .drive order event) (cancel : Bool) :
    WarmJob.Covers env next order { job with cancel := cancel } := by
  have covers := covering.job order job found
  have tasks : ∀ id ∈ job.set, ∃ task after,
      service.workers id = some (.tile task) ∧
      next.workers id = some (.tile after) ∧ task.order = order ∧
      task.Goes after := by
    intro id member
    refine (covering.tasks stepped running found member).resolve_right ?_
    rintro ⟨event, _, same, _⟩
    exact others event same
  refine ⟨covers.remaining, covers.rows, ?_, ?_, ?_, ?_, ?_⟩
  · intro id member
    obtain ⟨task, after, _, kept, own, goes⟩ := tasks id member
    exact ⟨after, kept, goes.order.trans own⟩
  · exact ⟨covers.settled.remaining, covers.settled.set,
      covers.settled.batch, covers.settled.errors⟩
  · intro staging key stored joined
    exact covering.staged named stepped running found stored joined
  · intro done staging id task stored member after skipped
    exact covering.skips named stepped running found done stored member after
      skipped
  · intro loading done clean staging key stored owes
    rcases covers.owed loading done clean staging key stored owes with
      (waits | rows | ⟨id, member, task, present, rfl⟩) | joined
    · exact .inl (.inl waits)
    · exact .inl (.inr (.inl rows))
    · obtain ⟨before, after, again, kept, _, goes⟩ := tasks id member
      cases present.symm.trans again
      exact .inl (.inr (.inr ⟨id, member, after, kept, goes.key⟩))
    · right
      refine (staged_kept named stepped running found stored
        joined).resolve_right ?_
      rintro ⟨disk, now, same, _⟩
      exact others _ same

/-- What is joined stays joined while the download goes on. -/
theorem WarmJob.Covers.joined_after {event : Event} {effect : Effect}
    (named : Named service)
    (stepped : Warm.step env service (.drive order event) = some next)
    (found : service.warmJobs order = some job)
    (advanced : job.step env service event = some (later, effect))
    (loading : later.phase.isLoading = true) {staging : String}
    {key : TileKey} (stored : job.storage = some staging)
    (joined : ⟨staging, key⟩ ∈ service.cache.tables.regionTiles) :
    ⟨staging, key⟩ ∈ next.cache.tables.regionTiles := by
  refine (staged_kept named stepped rfl found stored joined).resolve_right ?_
  rintro ⟨disk, now, same, cleaning | ⟨holder, cap, regions, position,
    promoting⟩⟩
  · cases same
    have calm : job.phase.isLoading = false := by
      cases phase : job.phase with
      | cleaning stagings => rfl
      | _ => rw [phase] at cleaning; cases cleaning
    cases WarmJob.step_loads advanced with
    | passes passes =>
        rw [(passes.loading loading).1] at calm
        cases calm
    | stores flushing => rw [flushing] at cleaning; cases cleaning
  · cases same
    simp only [WarmJob.step, promoting, Option.some.injEq, Prod.mk.injEq]
      at advanced
    rw [← advanced.1] at loading
    cases loading

/-! ### Steps of the driver -/

section Driver

variable {event : Event} {effect : Effect}

/-- The tasks of a job stay, but for the one which the driver takes. -/
theorem Covering.task_after (covering : Covering env service)
    (stepped : Warm.step env service (.drive order event) = some next)
    (found : service.warmJobs order = some job)
    (advanced : job.step env service event = some (later, effect)) {id : Nat}
    (member : id ∈ job.set) (untaken : effect ≠ .take id) :
    ∃ task after, service.workers id = some (.tile task) ∧
      next.workers id = some (.tile after) ∧ task.order = order ∧
      task.Goes after := by
  refine (covering.tasks stepped rfl found member).resolve_right ?_
  rintro ⟨_, _, same, taken⟩
  cases same
  cases advanced.symm.trans taken
  exact untaken rfl

variable (covering : Covering env service) (named : Named service)
  (stepped : Warm.step env service (.drive order event) = some next)
  (found : service.warmJobs order = some job)
  (advanced : job.step env service event = some (later, effect))

include covering named stepped found advanced

/-- The invariant behind a step, from what the step makes of the job: it may
start a task, and what it owes is what it has owed. -/
theorem WarmJob.Covers.of_step
    (remaining : ∀ key ∈ later.remaining.map Prod.snd, key ∈ job.keys env)
    (rows : ∀ key ∈ later.rows.map WarmRow.key, key ∈ job.keys env)
    (set : ∀ id ∈ later.set, (id ∈ job.set ∧ effect ≠ .take id) ∨
      ∃ task, next.workers id = some (.tile task) ∧ task.order = order ∧
        task.phase.result = none)
    (verdict : later.finalState = .done → job.finalState = .done)
    (owed : later.phase.isLoading = true → later.finalState = .done →
      later.errors = 0 → later.expanded = job.expanded ∧
        ∀ staging key, job.storage = some staging → key ∈ job.keys env →
          later.Holds next key ∨
            ⟨staging, key⟩ ∈ next.cache.tables.regionTiles) :
    later.Covers env next order := by
  have covers := covering.job order job found
  have grown : job.Extends later :=
    ⟨(WarmJob.step_spec advanced).1, WarmJob.step_expanded advanced⟩
  have storage : later.storage = job.storage :=
    WarmJob.storage_congr grown.spec
  refine ⟨?_, ?_, ?_, covers.settled.step advanced, ?_, ?_, ?_⟩
  · exact fun key member => grown.keys (remaining key member)
  · exact fun key member => grown.keys (rows key member)
  · intro id member
    rcases set id member with ⟨before, untaken⟩ | ⟨task, started, own, _⟩
    · obtain ⟨task, after, _, kept, own, goes⟩ :=
        covering.task_after stepped found advanced before untaken
      exact ⟨after, kept, goes.order.trans own⟩
    · exact ⟨task, started, own⟩
  · intro staging key stored joined
    exact grown.keys (covering.staged named stepped rfl found
      (storage.symm.trans stored) joined)
  · intro done staging id task stored member after skipped
    rcases set id member with ⟨before, _⟩ | ⟨other, started, _, unfinished⟩
    · exact covering.skips named stepped rfl found (verdict done)
        (storage.symm.trans stored) before after skipped
    · cases started.symm.trans after
      cases unfinished.symm.trans skipped
  · intro loading done clean staging key stored owes
    obtain ⟨expanded, held⟩ := owed loading done clean
    rw [WarmJob.keys_congr grown.spec expanded] at owes
    exact held staging key (storage.symm.trans stored) owes

/-- What the job has owed is still owed behind the step, or belonged to the
task which the driver has taken. -/
theorem WarmJob.Covers.owed_after (loading : job.phase.isLoading = true)
    (done : job.finalState = .done) (clean : job.errors = 0)
    (going : later.phase.isLoading = true) {staging : String} {key : TileKey}
    (stored : job.storage = some staging) (owes : key ∈ job.keys env) :
    (job.Holds next key ∨ ⟨staging, key⟩ ∈ next.cache.tables.regionTiles) ∨
      ∃ id ∈ job.set, effect = .take id ∧ ∃ task,
        service.workers id = some (.tile task) ∧ task.key = key := by
  rcases (covering.job order job found).owed loading done clean staging key
      stored owes with
    (waits | rows | ⟨id, member, task, present, rfl⟩) | joined
  · exact .inl (.inl (.inl waits))
  · exact .inl (.inl (.inr (.inl rows)))
  · by_cases taken : effect = .take id
    · exact .inr ⟨id, member, taken, task, present, rfl⟩
    · obtain ⟨_, after, again, kept, _, goes⟩ :=
        covering.task_after stepped found advanced member taken
      cases present.symm.trans again
      exact .inl (.inl (.inr (.inr ⟨id, member, after, kept, goes.key⟩)))
  · exact .inl (.inr (WarmJob.Covers.joined_after named stepped found advanced
      going stored joined))

theorem WarmJob.Covers.of_passes (passes : job.Passes later)
    (aside : effect.Aside service) : later.Covers env next order := by
  have covers := covering.job order job found
  have untaken : ∀ id ∈ job.set, effect ≠ .take id := by
    rintro id member rfl
    obtain ⟨asset, other⟩ := aside
    obtain ⟨_, again, _⟩ := covers.set id member
    cases other.symm.trans again
  apply WarmJob.Covers.of_step covering named stepped found advanced
  · rw [passes.remaining]
    exact covers.remaining
  · rw [passes.rows]
    exact covers.rows
  · intro id member
    rw [passes.set] at member
    exact .inl ⟨member, untaken id member⟩
  · exact passes.verdict
  · intro going done clean
    obtain ⟨loading, expanded⟩ := passes.loading going
    refine ⟨expanded, fun staging key stored owes => ?_⟩
    unfold WarmJob.Holds
    rw [passes.remaining, passes.rows, passes.set]
    refine (WarmJob.Covers.owed_after covering named stepped found advanced
      loading (passes.verdict done) (passes.errors clean) going stored
      owes).resolve_right ?_
    rintro ⟨id, member, taken, _⟩
    exact untaken id member taken

theorem WarmJob.Covers.of_enumerates (expanded : later.expanded = job.expanded)
    (remaining : later.remaining = job.enumeration env)
    (set : later.set = job.set) (rows : later.rows = job.rows)
    (verdict : later.finalState = job.finalState) (quiet : effect = .quiet) :
    later.Covers env next order := by
  have everything : later.remaining.map Prod.snd = job.keys env :=
    congrArg (List.map Prod.snd) remaining
  apply WarmJob.Covers.of_step covering named stepped found advanced
  · rw [everything]
    exact fun _ member => member
  · rw [rows]
    exact (covering.job order job found).rows
  · intro id member
    rw [set] at member
    exact .inl ⟨member, by simp [quiet]⟩
  · exact fun done => verdict.symm.trans done
  · refine fun _ _ _ => ⟨expanded, fun staging key _ owes => ?_⟩
    rw [← everything] at owes
    exact .inl (.inl owes)

theorem WarmJob.Covers.of_stores {rows : List WarmRow} {budget cap now : Int}
    {resume : Resume} {disk : DiskSpace}
    (flushing : job.phase = .flushing rows budget cap resume)
    (expanded : later.expanded = job.expanded)
    (remaining : later.remaining = job.remaining)
    (set : later.set = job.set) (batch : later.rows = job.batch)
    (errors : later.errors = job.errors)
    (verdict : later.finalState = .done →
      job.finalState = .done ∧ (service.cache.putManyPinned disk rows
        budget cap job.storage now).1.capped = false)
    (writes : effect =
      .call (.putManyPinned disk rows budget cap job.storage now)) :
    later.Covers env next order := by
  have covers := covering.job order job found
  have untaken : ∀ id, effect ≠ .take id := by simp [writes]
  have held : job.rows = job.batch ++ rows := by
    simp only [WarmJob.rows, flushing]
  apply WarmJob.Covers.of_step covering named stepped found advanced
  · rw [remaining]
    exact covers.remaining
  · intro key member
    rw [batch] at member
    apply covers.rows key
    rw [held, List.map_append]
    exact List.mem_append_left _ member
  · intro id member
    rw [set] at member
    exact .inl ⟨member, untaken id⟩
  · exact fun done => (verdict done).1
  · refine fun going done clean =>
      ⟨expanded, fun staging key stored owes => ?_⟩
    obtain ⟨before, whole⟩ := verdict done
    unfold WarmJob.Holds
    rw [remaining, batch, set]
    rcases WarmJob.Covers.owed_after covering named stepped found advanced
        (by rw [flushing]; rfl) before (errors ▸ clean) going stored owes with
      ((waits | row | task) | joined) | ⟨id, _, taken, _⟩
    · exact .inl (.inl waits)
    · rw [held, List.map_append] at row
      rcases List.mem_append.mp row with waits | written
      · exact .inl (.inr (.inl waits))
      · obtain ⟨row, member, rfl⟩ := List.mem_map.mp written
        right
        rw [(drive_performed stepped found advanced).cache, writes]
        rw [stored] at whole ⊢
        exact putManyPinned_joins whole member
    · exact .inl (.inr (.inr task))
    · exact .inr joined
    · exact absurd taken (untaken id)

theorem WarmJob.Covers.of_loses {rows : List WarmRow} {budget cap : Int}
    {resume : Resume}
    (flushing : job.phase = .flushing rows budget cap resume)
    (remaining : later.remaining = job.remaining)
    (set : later.set = job.set) (batch : later.rows = job.batch)
    (errors : later.errors ≠ 0)
    (verdict : later.finalState = .done → job.finalState = .done)
    (quiet : effect = .quiet) : later.Covers env next order := by
  have covers := covering.job order job found
  have held : job.rows = job.batch ++ rows := by
    simp only [WarmJob.rows, flushing]
  apply WarmJob.Covers.of_step covering named stepped found advanced
  · rw [remaining]
    exact covers.remaining
  · intro key member
    rw [batch] at member
    apply covers.rows key
    rw [held, List.map_append]
    exact List.mem_append_left _ member
  · intro id member
    rw [set] at member
    exact .inl ⟨member, by simp [quiet]⟩
  · exact verdict
  · exact fun _ _ clean => absurd clean errors

/-- The driver starts the task of the next tile. -/
theorem WarmJob.Covers.of_spawns {id : Nat} {source : ChartSource}
    {key : TileKey} {rest : List (ChartSource × TileKey)} {task : TileTask}
    (yields : job.remaining = (source, key) :: rest)
    (permitting : job.phase = .permitting)
    (grows : later =
      { job with remaining := rest, set := id :: job.set, phase := .draining })
    (starts : effect = .spawn id (.tile task)) (own : task.order = job.order)
    (target : task.key = key) (begun : task.phase.result = none) :
    later.Covers env next order := by
  subst grows starts
  have covers := covering.job order job found
  have started : next.workers id = some (.tile task) :=
    (congrFun (drive_performed stepped found advanced).workers id).trans
      (Function.update_self _ _ _)
  have rows : WarmJob.rows
      { job with remaining := rest, set := id :: job.set, phase := .draining } =
        job.rows := by
    simp [WarmJob.rows, permitting]
  apply WarmJob.Covers.of_step covering named stepped found advanced
  · intro other member
    apply covers.remaining other
    rw [yields]
    exact List.mem_cons_of_mem _ member
  · rw [rows]
    exact covers.rows
  · intro other member
    rcases List.mem_cons.mp member with rfl | before
    · exact .inr ⟨task, started, own.trans
        (named.order order job found).2.1, begun⟩
    · exact .inl ⟨before, by simp⟩
  · exact fun done => done
  · refine fun going done clean => ⟨rfl, fun staging other stored owes => ?_⟩
    unfold WarmJob.Holds
    rw [rows]
    rcases WarmJob.Covers.owed_after covering named stepped found advanced
        (by rw [permitting]; rfl) done clean going stored owes with
      ((waits | row | ⟨former, member, after⟩) | joined) | ⟨_, _, taken, _⟩
    · rw [yields] at waits
      rcases List.mem_cons.mp waits with rfl | later
      · exact .inl (.inr (.inr ⟨id, List.mem_cons_self, task, started, target⟩))
      · exact .inl (.inl later)
    · exact .inl (.inr (.inl row))
    · exact .inl (.inr (.inr ⟨former, List.mem_cons_of_mem _ member, after⟩))
    · exact .inr joined
    · cases taken

/-- The driver takes the result of a task. -/
theorem WarmJob.Covers.of_collects {id : Nat} {task : TileTask}
    {result : Option Fetched} (loading : job.phase.isLoading = true)
    (member : id ∈ job.set) (present : service.workers id = some (.tile task))
    (finished : task.phase = .finished result)
    (expanded : later.expanded = job.expanded)
    (remaining : later.remaining = job.remaining)
    (set : later.set = job.set.filter (· ≠ id))
    (rows : later.rows = job.rows ∨
      later.rows = job.rows ++ resultRows result)
    (errors : later.errors = 0 → job.errors = 0)
    (verdict : later.finalState = .done → job.finalState = .done)
    (kept : later.finalState = .done → later.errors = 0 →
      accounted result = true ∧ later.rows = job.rows ++ resultRows result)
    (takes : effect = .take id) : later.Covers env next order := by
  subst takes
  have covers := covering.job order job found
  have dropped : next.workers id = none :=
    (congrFun (drive_performed stepped found advanced).workers id).trans
      (Function.update_self _ _ _)
  have subset : ∀ other ∈ later.set, other ∈ job.set ∧ other ≠ id := by
    intro other chosen
    rw [set] at chosen
    simpa using List.mem_filter.mp chosen
  have has : task.phase.result = result := by
    rw [finished]
    rfl
  obtain ⟨resultKey, holder, otherFound, _, taskKey⟩ :=
    covering.task id task present
  obtain ⟨_, again, own⟩ := covers.set id member
  cases present.symm.trans again
  rw [own] at otherFound
  obtain rfl := Option.some.inj (found.symm.trans otherFound)
  apply WarmJob.Covers.of_step covering named stepped found advanced
  · rw [remaining]
    exact covers.remaining
  · intro key chosen
    rcases rows with same | same
    · rw [same] at chosen
      exact covers.rows key chosen
    · rw [same, List.map_append] at chosen
      rcases List.mem_append.mp chosen with before | added
      · exact covers.rows key before
      · obtain ⟨row, rowMember, rfl⟩ := List.mem_map.mp added
        rw [resultKey row (has ▸ rowMember)]
        exact taskKey
  · intro other chosen
    refine .inl ⟨(subset other chosen).1, fun taken => ?_⟩
    cases taken
    exact (subset id chosen).2 rfl
  · exact verdict
  · refine fun going done clean =>
      ⟨expanded, fun staging key stored owes => ?_⟩
    obtain ⟨accounts, batch⟩ := kept done clean
    unfold WarmJob.Holds
    rw [remaining, batch, List.map_append]
    rcases WarmJob.Covers.owed_after covering named stepped found advanced
        loading (verdict done) (errors clean) going stored owes with
      ((waits | row | ⟨other, chosen, after⟩) | joined) |
      ⟨other, _, taken, otherTask, otherPresent, rfl⟩
    · exact .inl (.inl waits)
    · exact .inl (.inr (.inl (List.mem_append_left _ row)))
    · have other_ne : other ≠ id := by
        rintro rfl
        obtain ⟨_, stays, _⟩ := after
        cases dropped.symm.trans stays
      refine .inl (.inr (.inr ⟨other, ?_, after⟩))
      rw [set]
      exact List.mem_filter.mpr ⟨chosen, by simpa using other_ne⟩
    · exact .inr joined
    · cases taken
      cases present.symm.trans otherPresent
      cases result with
      | none => cases accounts
      | some fetched =>
          cases fetched with
          | tile row | negative row =>
              have rowKey := resultKey row (by
                rw [has]
                simp [resultRows])
              refine .inl (.inr (.inl (List.mem_append_right _ ?_)))
              simp [resultRows, rowKey]
          | skipped =>
              exact .inr (WarmJob.Covers.joined_after named stepped found
                advanced going stored (covers.skipped (verdict done) staging
                  id _ stored member present has))
          | capped | error | cancelled => cases accounts

/-- A step of the driver. -/
theorem WarmJob.Covers.moves : later.Covers env next order := by
  cases WarmJob.step_loads advanced with
  | passes passes aside =>
      exact .of_passes covering named stepped found advanced passes aside
  | enumerates _ expanded remaining set rows _ verdict =>
      exact .of_enumerates covering named stepped found advanced expanded
        remaining set rows verdict rfl
  | spawns yields permitting =>
      exact .of_spawns covering named stepped found advanced yields permitting
        rfl rfl rfl rfl rfl
  | collects loading member present finished expanded remaining set rows
      errors verdict kept =>
      exact .of_collects covering named stepped found advanced loading member
        present finished expanded remaining set rows errors verdict kept rfl
  | stores flushing expanded remaining set batch errors verdict =>
      exact .of_stores covering named stepped found advanced flushing expanded
        remaining set batch errors verdict rfl
  | loses flushing _ remaining set batch errors verdict =>
      exact .of_loses covering named stepped found advanced flushing remaining
        set batch errors verdict rfl

end Driver

/-- A job which has just been registered. -/
theorem WarmJob.covers_registered (staged : Staged service)
    (stepped : Warm.step env service label = some next)
    (running : label.isBoot = false) (request : WarmRequest)
    (resolved : List ChartSource) (total : Nat) :
    WarmJob.Covers env next service.warmSeq
      (request.job service resolved total) := by
  refine ⟨?_, ?_, ?_, settled_of_level rfl, ?_, ?_, ?_⟩
  · exact fun _ member => absurd member List.not_mem_nil
  · exact fun _ member => absurd member List.not_mem_nil
  · exact fun _ member => absurd member List.not_mem_nil
  · intro staging key stored joined
    obtain ⟨target, _, rfl⟩ := WarmJob.storage_eq_some.mp stored
    rcases staged.issued_after stepped running staged.named.bootId joined with
      past | ⟨_, below⟩
    · exact absurd past staged.named.fresh
    · exact absurd below (lt_irrefl _)
  · intro _ _ _ _ _ member
    exact absurd member List.not_mem_nil
  · intro loading
    cases loading

theorem Covering.continues (covering : Covering env service)
    (staged : Staged service) (stepped : step env service label = some next)
    (running : label.isBoot = false) : Covering env next where
  job order job found := by
    cases job_origin stepped found with
    | flagged cancel others earlier =>
        exact WarmJob.Covers.flagged covering staged.named stepped running
          earlier others cancel
    | moves earlier advanced =>
        exact WarmJob.Covers.moves covering staged.named stepped earlier
          advanced
    | registered present registering room seq =>
        exact WarmJob.covers_registered staged stepped running _ _ _
  task id task found := by
    have kept : ∀ {order : Nat} {job : WarmJob},
        service.warmJobs order = some job → task.order = order →
        task.storage = job.storage → task.key ∈ job.keys env →
        ∃ later, next.warmJobs task.order = some later ∧
          task.storage = later.storage ∧ task.key ∈ later.keys env := by
      intro order job present own storage member
      subst own
      obtain ⟨later, after, grown⟩ :=
        job_after stepped running staged.named present
      exact ⟨later, after,
        storage.trans (WarmJob.storage_congr grown.spec).symm,
        grown.keys member⟩
    rcases tile_origin stepped found with present |
      ⟨event, earlier, effect, rfl, present, advanced⟩ |
      ⟨order, event, job, moved, rfl, present, advanced, _⟩
    · obtain ⟨row, job, jobFound, storage, member⟩ :=
        covering.task id task present
      exact ⟨row, kept jobFound rfl storage member⟩
    · obtain ⟨row, job, jobFound, storage, member⟩ :=
        covering.task id earlier present
      obtain ⟨own, _, key, _, target⟩ := TileTask.step_keeps advanced
      refine ⟨fun other has => ?_, kept jobFound own (target.trans storage)
        (key ▸ member)⟩
      rw [key]
      exact (TileTask.row_key advanced has).elim (row other) fun same => same
    · rcases WarmJob.step_spawn advanced with
        ⟨_, same, own, storage, phase, yields⟩ | ⟨_, same, _⟩
      · cases same
        refine ⟨fun other has => ?_, kept present
          (own.trans (staged.named.order order job present).2.1) storage
          ((covering.job order job present).remaining _
            (List.mem_map_of_mem yields))⟩
        rw [phase] at has
        cases has
      · cases same

/-- A service without jobs. -/
theorem covering_of_idle (jobs : ∀ order, service.warmJobs order = none)
    (workers : ∀ id, service.workers id = none) : Covering env service where
  job order job found := by cases (jobs order).symm.trans found
  task id task found := by cases (workers id).symm.trans found

theorem Covering.step (covering : Covering env service)
    (staged : Staged service) (stepped : step env service label = some next) :
    Covering env next := by
  rcases continues_or_boot stepped with
    ⟨_, running⟩ | ⟨deferred, evicted, bootId, _, _, rfl⟩
  · exact covering.continues staged stepped running
  · exact covering_of_idle (fun _ => rfl) fun _ => rfl

end Frames

end ChartLocker.Warm
