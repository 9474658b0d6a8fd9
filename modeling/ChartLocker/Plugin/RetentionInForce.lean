import ChartLocker.Plugin.Retention

/-!
# The last saved retention is the one in force

While a task holds the queue, everything under way to the container carries
the retention of that task.  A save puts its own push behind the task, so that
the last task of an empty queue carries the retention stored last.
-/

namespace ChartLocker.Plugin

open Library Config

open Regions (normalizeTtlDays)

variable {Document : Type}

/-! ## The container by itself -/

section Container

variable {env : Environment Document} {state next : AppState Document}
  {label : Label Document}

/-- By itself the container changes its knobs only where it publishes a
configuration. -/
theorem live_of_step (stepped : step env state label = some next)
    (plain : internal label = true) (silent : publishes label = false) :
    next.live = state.live := by
  cases label with
  | configRequest | scrollTtl | boot => cases plain
  | configPublish id => cases silent
  | cacheCall op =>
      cases stepped
      rfl
  | runJob id outcome =>
      simp only [step, runJob] at stepped
      split at stepped
      · cases stepped
        rw [perform_eq]
        rfl
      · contradiction
  | _ =>
      simp only [step, configBegin, configSources, configReconcile,
        configResume, configInstall, learnRequest, learnResolve,
        learnExisting, learnAnswer, learnCommit, learnPersist, learnFinish,
        lockHolder, unlockHolder, dropTask] at stepped
      repeat' split at stepped
      all_goals first
        | contradiction
        | (cases stepped; rfl)

/-- A configuration which is being handled has been handled before with the
same body. -/
theorem body_of_step (stepped : step env state label = some next)
    (plain : internal label = true) {id : Nat} {body : ConfigBody}
    {phase : ConfigPhase Document}
    (running : next.tasks id = some (.config body phase)) :
    ∃ earlier, state.tasks id = some (.config body earlier) := by
  have apart : ∀ deferred, label ≠ .boot deferred := by
    rintro deferred rfl
    cases plain
  by_cases owner : label.owner = some id
  · cases label with
    | configRequest | scrollTtl | boot => cases plain
    | cacheCall => cases owner
    | runJob other outcome =>
        cases owner
        simp only [step, runJob] at stepped
        split at stepped
        · cases stepped
          rw [perform_eq] at running
          exact ⟨phase, running⟩
        · contradiction
    | _ =>
        cases owner
        simp only [step, configBegin, configSources, configReconcile,
          configResume, configInstall, configPublish, learnRequest,
          learnResolve, learnExisting, learnAnswer, learnCommit,
          learnPersist, learnFinish, lockHolder, unlockHolder,
          dropTask] at stepped
        repeat' split at stepped
        all_goals first
          | contradiction
          | cases stepped
            simp_all [AppState.toPhase, AppState.toLearnPhase,
              AppState.setTask, AppState.setJob, AppState.finish,
              AppState.spawn, AppState.increment, installStyle]
  · rw [(beside_of_step stepped apart).tasks id owner] at running
    exact ⟨phase, running⟩

/-- Publishing puts the retention of the handled body in force. -/
theorem live_of_publish (stepped : step env state label = some next)
    (published : publishes label = true) :
    ∃ id body phase, state.tasks id = some (.config body phase) ∧
      next.live = body.knobs state.live := by
  cases label with
  | configPublish id =>
      simp only [step, configPublish] at stepped
      split at stepped
      · next body running =>
        cases stepped
        exact ⟨id, body, _, running, rfl⟩
      · contradiction
  | _ => cases published

end Container

/-! ## The invariant -/

/-- A push which is being handled carries a retention. -/
def Handles (container : AppState Document) (body : ConfigBody) : Prop :=
  ∃ id phase, container.tasks id = some (.config body phase)

structure InForce (state : RetentionState Document) : Prop where
  remembered : ∀ ttlSecs, state.lastRead = some ttlSecs →
    ttlSecs = state.storedTtlSecs
  latest : ∀ task, state.running = some task → state.waiting = [] →
    task.ttlSecs = state.storedTtlSecs
  sent : ∀ request ∈ state.wire, ∃ task, state.running = some task ∧
    request.ttlSecs = some task.ttlSecs
  handled : ∀ body, Handles state.container body → ∃ task,
    state.running = some task ∧ body.scrollTtlSecs = some task.ttlSecs
  applied : ∀ task, state.running = some task → task.applied = true →
    state.container.live.scrollTtlSecs = task.ttlSecs
  settled : state.running = none → state.waiting = [] →
    state.lastApplied = some true →
    state.container.live.scrollTtlSecs = state.storedTtlSecs

namespace InForce

variable {env : Environment Document} {state next : RetentionState Document}

theorem of_fresh (fresh : state.Fresh) : InForce state := by
  obtain ⟨unread, empty, idle, unsettled, noWire, noTask⟩ := fresh
  constructor
  · intro ttlSecs read
    rw [unread] at read
    cases read
  · intro task running
    rw [idle] at running
    cases running
  · intro request member
    rw [noWire] at member
    cases member
  · rintro body ⟨id, phase, running⟩
    exact absurd running (noTask id body phase)
  · intro task running
    rw [idle] at running
    cases running
  · intro _ _ settled
    rw [unsettled] at settled
    cases settled

/-- Whatever puts a push behind the others keeps the invariant, as long as a
remembered value is the stored one. -/
theorem queued (holds : InForce state)
    (behind : next.waiting ≠ [])
    (remembered : ∀ ttlSecs, next.lastRead = some ttlSecs →
      ttlSecs = next.storedTtlSecs)
    (running : next.running = state.running)
    (wire : next.wire = state.wire)
    (container : next.container = state.container) : InForce next where
  remembered := remembered
  latest _ _ empty := absurd empty behind
  sent := by
    rw [wire, running]
    exact holds.sent
  handled := by
    rw [container, running]
    exact holds.handled
  applied := by
    rw [container, running]
    exact holds.applied
  settled _ empty := absurd empty behind

theorem save (holds : InForce state) {value : Option Ecma.Value}
    {writable address : Bool}
    (followed : (state.postCacheConfig value writable address).2 ≠
      .unavailable) :
    InForce (state.postCacheConfig value writable address).1 := by
  unfold RetentionState.postCacheConfig at followed ⊢
  split
  · exact holds
  · next days accepted =>
    rw [accepted] at followed
    cases writable with
    | false => exact holds
    | true =>
      cases address with
      | false => exact absurd rfl followed
      | true =>
        refine holds.queued ?_ ?_ rfl rfl rfl
        · simp [RetentionState.enqueue]
        · intro ttlSecs remembered
          obtain rfl := Option.some.inj remembered
          simp [RetentionState.storedTtlSecs, RetentionState.enqueue,
            normalizeTtlDays_ofRat accepted]

theorem enqueue (holds : InForce state) (push : Push) :
    InForce (state.enqueue push) := by
  apply holds.queued
  · simp [RetentionState.enqueue]
  · exact holds.remembered
  · rfl
  · rfl
  · rfl

/-- What the queue reads is the stored retention, also where the store cannot
be read. -/
theorem current (holds : InForce state) {readable : Bool} {ttlSecs : Int}
    (read : state.current readable = some (next, ttlSecs)) :
    ttlSecs = state.storedTtlSecs ∧
      next = { state with lastRead := some ttlSecs } := by
  cases readable with
  | true =>
    simp only [RetentionState.current, if_true, Option.some.injEq,
      Prod.mk.injEq] at read
    obtain ⟨rfl, rfl⟩ := read
    exact ⟨rfl, rfl⟩
  | false =>
    simp only [RetentionState.current, Bool.false_eq_true, if_false,
      Option.map_eq_some_iff, Prod.mk.injEq] at read
    obtain ⟨value, remembered, rfl, rfl⟩ := read
    refine ⟨holds.remembered value remembered, ?_⟩
    rw [← remembered]

theorem read (holds : InForce state) {ttlSecs : Int}
    (stored : ttlSecs = state.storedTtlSecs) :
    InForce { state with lastRead := some ttlSecs } where
  remembered := by
    rintro _ ⟨⟩
    exact stored
  latest := holds.latest
  sent := holds.sent
  handled := holds.handled
  applied := holds.applied
  settled := holds.settled

/-- While no task runs, nothing is under way. -/
theorem quiet (holds : InForce state) (idle : state.running = none) :
    state.wire = [] ∧ ∀ body, ¬ Handles state.container body := by
  constructor
  · apply List.eq_nil_iff_forall_not_mem.mpr
    intro request member
    obtain ⟨task, running, _⟩ := holds.sent request member
    rw [idle] at running
    cases running
  · intro body handles
    obtain ⟨task, running, _⟩ := holds.handled body handles
    rw [idle] at running
    cases running

theorem start (holds : InForce state) {readable : Bool}
    (started : state.start readable = some next) : InForce next := by
  unfold RetentionState.start at started
  split at started
  · next push rest idle waiting =>
    obtain ⟨noWire, noTask⟩ := holds.quiet idle
    split at started
    · next read ttlSecs current =>
      obtain ⟨stored, rfl⟩ := holds.current current
      cases started
      have holds := holds.read stored
      constructor
      · exact holds.remembered
      · rintro task ⟨⟩ _
        exact stored
      · intro request member
        rw [noWire] at member
        cases member
      · intro body handles
        exact absurd handles (noTask body)
      · rintro task ⟨⟩ applied
        cases applied
      · intro impossible
        cases impossible
    · cases started
      constructor
      · exact holds.remembered
      · intro task running
        rw [idle] at running
        cases running
      · exact holds.sent
      · exact holds.handled
      · intro task running
        rw [idle] at running
        cases running
      · rintro _ _ ⟨⟩
  · contradiction

theorem send (holds : InForce state) (sent : state.send = some next) :
    InForce next := by
  unfold RetentionState.send at sent
  split at sent
  · next task running =>
    split at sent
    · cases sent
      constructor
      · exact holds.remembered
      · rintro _ ⟨⟩ empty
        exact holds.latest task running empty
      · intro request member
        refine ⟨_, rfl, ?_⟩
        rcases List.mem_append.mp member with earlier | last
        · obtain ⟨owner, owns, carries⟩ := holds.sent request earlier
          obtain rfl := Option.some.inj (running.symm.trans owns)
          exact carries
        · obtain rfl := List.mem_singleton.mp last
          exact Push.request_ttlSecs _ _
      · intro body handles
        obtain ⟨owner, owns, carries⟩ := holds.handled body handles
        obtain rfl := Option.some.inj (running.symm.trans owns)
        exact ⟨_, rfl, carries⟩
      · rintro _ ⟨⟩ applied
        exact holds.applied task running applied
      · intro idle
        cases idle
    · contradiction
  · contradiction

/-- A request may leave the wire at any time. -/
theorem lose (holds : InForce state) (index : Nat) :
    InForce { state with wire := state.wire.eraseIdx index } where
  remembered := holds.remembered
  latest := holds.latest
  sent := fun request member =>
    holds.sent request (List.mem_of_mem_eraseIdx member)
  handled := holds.handled
  applied := holds.applied
  settled := holds.settled

/-- Nothing but the running task changes what is in force. -/
theorem replaced (holds : InForce state) {container : AppState Document}
    (handled : ∀ body, Handles container body → ∃ task,
      state.running = some task ∧ body.scrollTtlSecs = some task.ttlSecs)
    (same : container.live.scrollTtlSecs =
      state.container.live.scrollTtlSecs) :
    InForce { state with container := container } where
  remembered := holds.remembered
  latest := holds.latest
  sent := holds.sent
  handled := handled
  applied task running applied :=
    same.trans (holds.applied task running applied)
  settled idle empty applied :=
    same.trans (holds.settled idle empty applied)

/-- The container puts the retention of the running task in force. -/
theorem noteApplied (holds : InForce state) {container : AppState Document}
    {task : RunningPush} (running : state.running = some task)
    (handled : ∀ body, Handles container body →
      body.scrollTtlSecs = some task.ttlSecs)
    (applied : container.live.scrollTtlSecs = task.ttlSecs) :
    InForce
      (RetentionState.noteApplied { state with container := container }) := by
  constructor
  · exact holds.remembered
  · rintro _ noted empty
    simp only [RetentionState.noteApplied, running, Option.map_some,
      Option.some.injEq] at noted
    subst noted
    exact holds.latest task running empty
  · intro request member
    obtain ⟨owner, owns, carries⟩ := holds.sent request member
    obtain rfl := Option.some.inj (running.symm.trans owns)
    exact ⟨{ task with applied := true },
      by simp [RetentionState.noteApplied, running], carries⟩
  · intro body handles
    exact ⟨{ task with applied := true },
      by simp [RetentionState.noteApplied, running], handled body handles⟩
  · rintro _ noted _
    simp only [RetentionState.noteApplied, running, Option.map_some,
      Option.some.injEq] at noted
    subst noted
    exact applied
  · intro idle
    simp [RetentionState.noteApplied, running] at idle

/-- The task whose request was on the wire. -/
theorem sender (holds : InForce state) {index : Nat} {request : Request}
    (found : state.wire[index]? = some request) :
    ∃ task, state.running = some task ∧
      request.ttlSecs = some task.ttlSecs :=
  holds.sent request (List.mem_of_getElem? found)

theorem deliver (holds : InForce state) {index id : Nat}
    (delivered : state.deliver index id = some next) : InForce next := by
  unfold RetentionState.deliver at delivered
  split at delivered
  · next ttlSecs found =>
    obtain ⟨task, running, carries⟩ := holds.sender found
    obtain rfl : ttlSecs = task.ttlSecs := Option.some.inj carries
    have tasks : (setScrollTtl state.container task.ttlSecs).tasks =
        state.container.tasks := by
      unfold setScrollTtl
      split <;> rfl
    have handled : ∀ body,
        Handles (setScrollTtl state.container task.ttlSecs) body → ∃ owner,
          state.running = some owner ∧
            body.scrollTtlSecs = some owner.ttlSecs := by
      intro body handles
      unfold Handles at handles
      rw [tasks] at handles
      exact holds.handled body handles
    split at delivered
    · next accepted =>
      cases delivered
      refine (holds.lose index).noteApplied running ?_ ?_
      · intro body handles
        obtain ⟨owner, owns, carries⟩ := handled body handles
        obtain rfl := Option.some.inj (running.symm.trans owns)
        exact carries
      · rw [setScrollTtl, if_pos accepted]
    · next refused =>
      cases delivered
      refine (holds.lose index).replaced handled ?_
      rw [setScrollTtl, if_neg refused]
  · next body found =>
    obtain ⟨task, running, carries⟩ := holds.sender found
    obtain ⟨container, requested, rfl⟩ :=
      Option.map_eq_some_iff.mp delivered
    unfold configRequest at requested
    split at requested
    · cases requested
      refine (holds.lose index).replaced ?_ rfl
      rintro other ⟨key, phase, handling⟩
      by_cases own : key = id
      · subst own
        cases (Function.update_self _ _ _).symm.trans handling
        exact ⟨task, running, carries⟩
      · have earlier : state.container.tasks key =
            some (.config other phase) :=
          (Function.update_of_ne own _ _).symm.trans handling
        exact holds.handled other ⟨key, phase, earlier⟩
    · contradiction
  · contradiction

theorem serve (holds : InForce state) {label : Label Document}
    (served : state.serve env label = some next) : InForce next := by
  unfold RetentionState.serve at served
  split at served
  · next plain =>
    obtain ⟨container, stepped, rfl⟩ := Option.map_eq_some_iff.mp served
    have earlier : ∀ body, Handles container body →
        Handles state.container body := by
      rintro body ⟨id, phase, handling⟩
      obtain ⟨before, running⟩ := body_of_step stepped plain handling
      exact ⟨id, before, running⟩
    cases published : publishes label with
    | false =>
      refine holds.replaced (fun body handles =>
        holds.handled body (earlier body handles)) ?_
      rw [live_of_step stepped plain published]
    | true =>
      obtain ⟨id, body, phase, handling, live⟩ :=
        live_of_publish stepped published
      obtain ⟨task, running, carries⟩ :=
        holds.handled body ⟨id, phase, handling⟩
      refine holds.noteApplied running ?_ ?_
      · intro other handles
        obtain ⟨owner, owns, carries⟩ :=
          holds.handled other (earlier other handles)
        obtain rfl := Option.some.inj (running.symm.trans owns)
        exact carries
      · simp [live, ConfigBody.knobs, carries]
  · contradiction

/-- A task which settles with nothing under way leaves what is in force to
the next one. -/
theorem settle (holds : InForce state) (quiet : state.Quiet)
    (ended : state.settle = some next) : InForce next := by
  obtain ⟨task, running, rfl⟩ := Option.map_eq_some_iff.mp ended
  constructor
  · exact holds.remembered
  · intro _ impossible
    cases impossible
  · intro request member
    have none : state.wire = [] := quiet.1
    rw [none] at member
    cases member
  · rintro body ⟨id, phase, handling⟩
    exact absurd handling (quiet.2 id body phase)
  · intro _ impossible
    cases impossible
  · intro _ empty applied
    have last : task.applied = true := Option.some.inj applied
    exact (holds.applied task running last).trans
      (holds.latest task running empty)

theorem step (holds : InForce state) {label : RetentionLabel Document}
    (orderly : state.Orderly label)
    (stepped : state.step env label = some next) : InForce next := by
  cases label with
  | save value writable address =>
      cases stepped
      exact holds.save orderly
  | enqueue arguments =>
      cases stepped
      exact holds.enqueue _
  | read readable =>
      obtain ⟨⟨after, ttlSecs⟩, current, rfl⟩ :=
        Option.map_eq_some_iff.mp stepped
      obtain ⟨stored, rfl⟩ := holds.current current
      exact holds.read stored
  | start readable => exact holds.start stepped
  | send => exact holds.send stepped
  | deliver index id => exact holds.deliver stepped
  | lose index =>
      simp only [RetentionState.step] at stepped
      split at stepped
      · cases stepped
        exact holds.lose index
      · contradiction
  | serve label => exact holds.serve stepped
  | settle => exact holds.settle orderly stepped

end InForce

/-! ## Whole runs -/

theorem inForce_of_orderly {env : Environment Document}
    {start final : RetentionState Document}
    {labels : List (RetentionLabel Document)} (fresh : start.Fresh)
    (run : (retentionMachine env).exec start labels = some final)
    (orderly : (retentionMachine env).AllSteps RetentionState.Orderly start
      labels) : InForce final := by
  apply Machine.exec_preserves_of_allSteps _ run orderly
  · exact .of_fresh fresh
  · intro state label next holds meets stepped
    exact holds.step meets stepped

/-- Whenever the queue is empty and the container applied the last task, the
scroll retention in force is the one stored last. -/
theorem last_saved_retention_in_force {env : Environment Document}
    {start final : RetentionState Document}
    {labels : List (RetentionLabel Document)} (fresh : start.Fresh)
    (run : (retentionMachine env).exec start labels = some final)
    (orderly : (retentionMachine env).AllSteps RetentionState.Orderly start
      labels)
    (idle : final.running = none) (empty : final.waiting = [])
    (applied : final.lastApplied = some true) :
    final.container.live.scrollTtlSecs =
      scrollTtlSecsFromDays (normalizeTtlDays final.cacheScrollTtlDays) :=
  (inForce_of_orderly fresh run orderly).settled idle empty applied

def sampleArguments : PayloadArguments where
  sources := []
  capBytes := 1000
  regionsBudgetBytes := 500
  positionWarmBudgetBytes := 50
  geocodingEnabled := true

/-- A plugin with a new store beside a container which has just started. -/
def newPlugin : RetentionState Nat where
  cacheScrollTtlDays := none
  lastRead := none
  waiting := []
  running := none
  lastApplied := none
  wire := []
  container := firstBoot sampleEnvironment

/-- A week is saved while the startup push is under way, and the store cannot
be read when the push of the save begins. -/
def weekSaved : List (RetentionLabel Nat) :=
  [.enqueue sampleArguments, .start true, .send,
    .save (some (.ofRat 7)) true true, .lose 0, .settle,
    .start false, .send, .deliver 0 0, .settle]

/-- The state in which the week has been saved. -/
def weekStored : RetentionState Nat :=
  { newPlugin with
    cacheScrollTtlDays := some (.ofRat 7)
    lastRead := some 604800
    waiting := [.retention]
    running := some ⟨.config sampleArguments, 2592000, 1, false⟩
    wire := [.config (buildSourcePayload sampleArguments 2592000)] }

/-- The state in which the week is in force. -/
def weekInForce : RetentionState Nat :=
  { newPlugin with
    cacheScrollTtlDays := some (.ofRat 7)
    lastRead := some 604800
    lastApplied := some true
    container := setScrollTtl newPlugin.container 604800 }

theorem last_saved_retention_in_force_weekSaved :
    (retentionMachine sampleEnvironment).exec newPlugin weekSaved =
        some weekInForce ∧
      weekInForce.container.live.scrollTtlSecs =
        scrollTtlSecsFromDays
          (normalizeTtlDays weekInForce.cacheScrollTtlDays) := by
  have run : (retentionMachine sampleEnvironment).exec newPlugin weekSaved =
      some weekInForce := by
    with_unfolding_all rfl
  have untasked : ∀ id body phase,
      newPlugin.container.tasks id ≠ some (.config body phase) := by
    intro id body phase impossible
    cases impossible
  have fresh : newPlugin.Fresh := ⟨rfl, rfl, rfl, rfl, rfl, untasked⟩
  refine ⟨run, last_saved_retention_in_force fresh run ?_ rfl rfl rfl⟩
  have queued : SaveOutcome.queued ≠ .unavailable := by decide
  -- Both settlements find the wire empty and the container without a task.
  apply Machine.allSteps_cons_of_step rfl trivial
  apply Machine.allSteps_cons_of_step rfl trivial
  apply Machine.allSteps_cons_of_step rfl trivial
  refine Machine.allSteps_cons_of_step
    (show _ = some weekStored by with_unfolding_all rfl) queued ?_
  apply Machine.allSteps_cons_of_step rfl trivial
  refine Machine.allSteps_cons_of_step rfl ⟨rfl, untasked⟩ ?_
  apply Machine.allSteps_cons_of_step rfl trivial
  apply Machine.allSteps_cons_of_step rfl trivial
  apply Machine.allSteps_cons_of_step rfl trivial
  refine Machine.allSteps_cons_of_step rfl ⟨rfl, untasked⟩ ?_
  exact trivial

end ChartLocker.Plugin
