import ChartLocker.Plugin.PositionWarmer
import Mathlib.Algebra.Order.Field.Rat
import Mathlib.Data.List.Find
import Mathlib.Data.Nat.Cast.Order.Ring
import Mathlib.Tactic.Linarith

/-!
# Position warming is measured

In every run of the warmer its warms start at least a minute apart and one at
a time, a failed one is followed by the backoff, and each sends one POST and a
bounded number of polls of the job which the container has accepted.
-/

namespace ChartLocker.Plugin.PositionWarm

open Library Regions Ecma
open Spacing (second)

def Request.warm : Request → Nat
  | .post warm => warm
  | .get warm _ => warm

def Request.polls (id : Nat) : Request → Bool
  | .post _ => false
  | .get warm _ => warm == id

def maxPolls : Nat := pollAttempts * maxRetries

namespace Call

/-- The polls which a call has sent at most. -/
def spent : Call → Nat
  | .unconfigured => 0
  | .posting => 0
  | .polling _ poll attempt => maxRetries * poll + attempt + 1
  | .retrying _ poll attempt _ => maxRetries * poll + attempt
  | .resting _ poll _ => maxRetries * (poll + 1)

def Bounded : Call → Prop
  | .unconfigured => True
  | .posting => True
  | .polling _ poll attempt => poll < pollAttempts ∧ attempt < maxRetries
  | .retrying _ poll attempt _ => poll < pollAttempts ∧ attempt < maxRetries
  | .resting _ poll _ => poll < pollAttempts

/-- The job which the call asks for. -/
def job : Call → Option String
  | .unconfigured => none
  | .posting => none
  | .polling jobId _ _ => some jobId
  | .retrying jobId _ _ _ => some jobId
  | .resting jobId _ _ => some jobId

theorem spent_le {call : Call} (bounded : call.Bounded) :
    call.spent ≤ maxPolls := by
  cases call with
  | unconfigured => exact Nat.zero_le _
  | posting => exact Nat.zero_le _
  | polling jobId poll attempt =>
      obtain ⟨few, tries⟩ := bounded
      unfold spent
      simp only [pollAttempts, maxRetries, maxPolls] at *
      omega
  | retrying jobId poll attempt wakes =>
      obtain ⟨few, tries⟩ := bounded
      unfold spent
      simp only [pollAttempts, maxRetries, maxPolls] at *
      omega
  | resting jobId poll wakes =>
      have few : poll < pollAttempts := bounded
      unfold spent
      simp only [pollAttempts, maxRetries, maxPolls] at *
      omega

end Call

namespace PositionWarmer

/-! ## Moves -/

/-- A poll of the job is sent. -/
def asks (warmer : PositionWarmer) (warm : Warm) (jobId : String)
    (poll attempt : Nat) : PositionWarmer :=
  { warmer.setCall warm (.polling jobId poll attempt) with
    requests := .get warm.id jobId :: warmer.requests }

section Moves

variable (env : Environment) (warmer : PositionWarmer)

/-- What a step does at its instant. -/
inductive Move : PositionWarmer → Prop where
  | ignored : Move warmer
  | unread (running : warmer.stopped = false) : Move warmer.backOff
  | started (running : warmer.stopped = false) (idle : warmer.active = none)
      (pos : Position) (store : RegionsStore) (configured : Bool)
      (rested : warmer.trigger.backoffUntil ≤ warmer.clock)
      (sources : env.selectWarmable store.positionWarm.sources ≠ [])
      (should : shouldWarm env pos store.regions store.positionWarm
        warmer.trigger warmer.clock = true) :
      Move (warmer.start env pos store configured)
  | finished (warm : Warm) (call : Call)
      (active : warmer.active = some ⟨warm, call⟩)
      (result : Option WarmResult) :
      Move (warmer.finish warm result)
  | accepted (running : warmer.stopped = false) (warm : Warm)
      (active : warmer.active = some ⟨warm, .posting⟩) (jobId : String) :
      Move ({ warmer with
        accepted := (warm.id, jobId) :: warmer.accepted }.asks warm jobId 0 0)
  /-- The answer to the POST has overtaken the abort. -/
  | acceptedLate (warm : Warm)
      (active : warmer.active = some ⟨warm, .posting⟩)
      (late : warmer.stopped = true) (jobId : String) :
      Move { warmer with
        accepted := (warm.id, jobId) :: warmer.accepted
        active := none }
  | retried (running : warmer.stopped = false) (warm : Warm) (jobId : String)
      (poll attempt wakes : Nat)
      (active : warmer.active =
        some ⟨warm, .retrying jobId poll attempt wakes⟩) :
      Move (warmer.asks warm jobId poll attempt)
  | polled (running : warmer.stopped = false) (warm : Warm) (jobId : String)
      (poll wakes : Nat)
      (active : warmer.active = some ⟨warm, .resting jobId poll wakes⟩)
      (more : poll + 1 < pollAttempts) :
      Move (warmer.asks warm jobId (poll + 1) 0)
  | retries (warm : Warm) (jobId : String) (poll attempt wakes : Nat)
      (active : warmer.active = some ⟨warm, .polling jobId poll attempt⟩)
      (more : attempt + 1 < maxRetries) :
      Move (warmer.setCall warm (.retrying jobId poll (attempt + 1) wakes))
  | rests (warm : Warm) (jobId : String) (poll attempt wakes : Nat)
      (active : warmer.active = some ⟨warm, .polling jobId poll attempt⟩) :
      Move (warmer.setCall warm (.resting jobId poll wakes))
  | stopped : Move { warmer with stopped := true }

end Moves

variable {env : Environment} {warmer next : PositionWarmer}

theorem fetchStatus_running (running : warmer.stopped = false) (warm : Warm)
    (jobId : String) (poll attempt : Nat) :
    warmer.fetchStatus warm jobId poll attempt =
      warmer.asks warm jobId poll attempt := by
  unfold fetchStatus
  rw [running]
  rfl

theorem move_onPosition (fix : Fix) (store : Option RegionsStore)
    (configured : Bool) :
    Move env warmer (warmer.onPosition env fix store configured) := by
  unfold onPosition
  split
  · exact .ignored
  · next free =>
    have open_ : warmer.stopped = false ∧ warmer.active = none := by
      simpa using free
    split
    · exact .ignored
    · next pos valid =>
      split
      · exact .ignored
      · next rested =>
        split
        · exact .unread open_.1
        · next read =>
          split
          · exact .ignored
          · next sources =>
            split
            · next should =>
              exact .started open_.1 open_.2 pos read configured
                (Nat.le_of_not_lt rested) sources should
            · exact .ignored

theorem move_readStatus {warm : Warm} {jobId : String} {poll attempt : Nat}
    (active : warmer.active = some ⟨warm, .polling jobId poll attempt⟩)
    (answer : Option Answer) :
    Move env warmer (warmer.readStatus warm jobId poll attempt answer) := by
  have retry : Move env warmer (warmer.retry warm jobId poll attempt) := by
    unfold PositionWarmer.retry
    split
    · next more => exact .retries warm jobId poll attempt _ active more.2
    · exact .finished warm _ active none
  unfold readStatus
  split
  · exact retry
  · split
    · exact retry
    · split
      · exact .finished warm _ active none
      · split
        · exact .finished warm _ active none
        · next snapshot _ =>
          split
          · exact .finished warm _ active (some snapshot)
          · split
            · exact .finished warm _ active none
            · exact .rests warm jobId poll attempt _ active

theorem move_readStart {warm : Warm}
    (active : warmer.active = some ⟨warm, .posting⟩)
    (answer : Option Answer) :
    Move env warmer (warmer.readStart warm answer) := by
  unfold readStart
  split
  · next jobId _ =>
    rcases Bool.eq_false_or_eq_true warmer.stopped with late | running
    · have ended : ({ warmer with
          accepted := (warm.id, jobId) :: warmer.accepted }.fetchStatus
            warm jobId 0 0) = { warmer with
              accepted := (warm.id, jobId) :: warmer.accepted
              active := none } := by
        simp [fetchStatus, finish, late]
      rw [ended]
      exact .acceptedLate warm active late jobId
    · have still : ({ warmer with
          accepted := (warm.id, jobId) :: warmer.accepted }).stopped =
            false := running
      rw [fetchStatus_running still]
      exact .accepted running warm active jobId
  · exact .finished warm _ active none

theorem move_receive {answer : Option Answer}
    (received : warmer.receive answer = some next) : Move env warmer next := by
  obtain ⟨⟨warm, call⟩, active, continued⟩ :=
    Option.bind_eq_some_iff.mp received
  cases call with
  | unconfigured =>
      cases continued
      exact .finished warm _ active none
  | posting =>
      cases continued
      exact move_readStart active answer
  | polling jobId poll attempt =>
      cases continued
      exact move_readStatus active answer
  | retrying jobId poll attempt wakes => cases continued
  | resting jobId poll wakes => cases continued

theorem move_wakeUp (woken : warmer.wakeUp = some next) :
    Move env warmer next := by
  obtain ⟨⟨warm, call⟩, active, continued⟩ := Option.bind_eq_some_iff.mp woken
  cases call with
  | unconfigured => cases continued
  | posting => cases continued
  | polling jobId poll attempt => cases continued
  | retrying jobId poll attempt wakes =>
      dsimp only at continued
      split at continued
      · cases continued
        exact .finished warm _ active none
      · next running =>
        split at continued
        · cases continued
          have still := Bool.eq_false_iff.mpr running
          rw [fetchStatus_running still]
          exact .retried still warm jobId poll attempt wakes active
        · cases continued
  | resting jobId poll wakes =>
      dsimp only at continued
      split at continued
      · cases continued
        exact .finished warm _ active none
      · next running =>
        split at continued
        · split at continued
          · next more =>
            cases continued
            have still := Bool.eq_false_iff.mpr running
            rw [fetchStatus_running still]
            exact .polled still warm jobId poll wakes active more
          · cases continued
            exact .finished warm _ active none
        · cases continued

/-- A step moves the clock and then the warmer. -/
theorem move_of_step {label : Label}
    (stepped : warmer.step env label = some next) :
    ∃ now, warmer.clock ≤ now ∧ Move env { warmer with clock := now } next := by
  have instant {now : Nat} {present : PositionWarmer}
      (moved : warmer.atInstant now = some present) :
      warmer.clock ≤ now ∧ present = { warmer with clock := now } := by
    unfold atInstant at moved
    split at moved
    · next later =>
      cases moved
      exact ⟨later, rfl⟩
    · cases moved
  cases label with
  | onPosition now fix store configured =>
      obtain ⟨present, moved, rfl⟩ := Option.map_eq_some_iff.mp stepped
      obtain ⟨later, rfl⟩ := instant moved
      exact ⟨now, later, move_onPosition fix store configured⟩
  | answer now answer =>
      obtain ⟨present, moved, received⟩ := Option.bind_eq_some_iff.mp stepped
      obtain ⟨later, rfl⟩ := instant moved
      exact ⟨now, later, move_receive received⟩
  | wake now =>
      obtain ⟨present, moved, woken⟩ := Option.bind_eq_some_iff.mp stepped
      obtain ⟨later, rfl⟩ := instant moved
      exact ⟨now, later, move_wakeUp woken⟩
  | stop now =>
      obtain ⟨present, moved, rfl⟩ := Option.map_eq_some_iff.mp stepped
      obtain ⟨later, rfl⟩ := instant moved
      exact ⟨now, later, .stopped⟩

/-! ## The end of a warm -/

theorem finish_cases (warmer : PositionWarmer) (warm : Warm)
    (result : Option WarmResult) :
    (warmer.stopped = true ∧
      warmer.finish warm result = { warmer with active := none }) ∨
    ((⟨warm, warmer.clock, result⟩ : Outcome).succeeded = false ∧
      warmer.finish warm result = { warmer with
        active := none
        outcomes := ⟨warm, warmer.clock, result⟩ :: warmer.outcomes
        trigger := { warmer.trigger with
          backoffUntil := warmer.clock + backoffSecs * second } }) ∨
    ((⟨warm, warmer.clock, result⟩ : Outcome).succeeded = true ∧
      warmer.finish warm result = { warmer with
        active := none
        outcomes := ⟨warm, warmer.clock, result⟩ :: warmer.outcomes
        trigger := { warmer.trigger with
          lastPos := some warm.pos
          lastWarm := warm.startedAt } }) := by
  unfold finish
  cases stopped : warmer.stopped with
  | true => exact .inl ⟨rfl, rfl⟩
  | false =>
      right
      cases result with
      | none => exact .inl ⟨rfl, rfl⟩
      | some found =>
          by_cases bad : found.state ≠ .done ∨ found.errors > 0
          · left
            refine ⟨?_, ?_⟩
            · unfold Outcome.succeeded
              rw [Option.any_some, Bool.and_eq_false_iff]
              rcases bad with state | errors
              · exact .inl (beq_eq_false_iff_ne.mpr state)
              · exact .inr (beq_eq_false_iff_ne.mpr (Nat.ne_of_gt errors))
            · simp only [Bool.false_eq_true, if_false, if_pos bad]
              rfl
          · right
            refine ⟨?_, ?_⟩
            · have good : found.state = .done ∧ found.errors = 0 := by
                simpa using bad
              simp [Outcome.succeeded, good.1, good.2]
            · simp only [Bool.false_eq_true, if_false, if_neg bad]

/-! ## Timing -/

/-- The newest success before a warm. -/
def lastSuccess (outcomes : List Outcome) (warm : Warm) : Option Outcome :=
  outcomes.find? fun outcome =>
    outcome.succeeded && decide (outcome.warm.id < warm.id)

/-- What holds of a warm which was started, given the outcomes so far. -/
structure Justified (env : Environment) (outcomes : List Outcome)
    (warm : Warm) : Prop where
  request : warm.request = requestFor env warm.pos warm.settings
  sources : warm.request.sources ≠ []
  should : shouldWarm env warm.pos warm.regions warm.settings warm.trigger
    warm.startedAt = true
  moved : warm.trigger.lastPos =
    (lastSuccess outcomes warm).map fun outcome => outcome.warm.pos
  waited : ∀ outcome ∈ outcomes, outcome.warm.id < warm.id →
    outcome.succeeded = true →
      (outcome.warm.startedAt : ℚ) + interval warm.settings ≤ warm.startedAt
  backedOff : ∀ outcome ∈ outcomes, outcome.warm.id < warm.id →
    outcome.succeeded = false →
      outcome.endedAt + backoffSecs * second ≤ warm.startedAt

def current (warmer : PositionWarmer) : Option Warm :=
  warmer.active.map Active.warm

structure Timing (env : Environment) (warmer : PositionWarmer) : Prop where
  numbered : ∀ warm ∈ warmer.warms, warm.id < warmer.warms.length
  started : ∀ warm ∈ warmer.warms, warm.startedAt ≤ warmer.clock
  newest : ∀ warm, warmer.current = some warm →
    warm ∈ warmer.warms ∧ warm.id + 1 = warmer.warms.length ∧
      (∀ other ∈ warmer.warms, other.startedAt ≤ warm.startedAt) ∧
      ∀ outcome ∈ warmer.outcomes, outcome.warm.id < warm.id
  ended : ∀ outcome ∈ warmer.outcomes, outcome.warm ∈ warmer.warms ∧
    outcome.warm.startedAt ≤ outcome.endedAt ∧
      outcome.endedAt ≤ warmer.clock
  closed : warmer.stopped = false → ∀ warm ∈ warmer.warms,
    warmer.current = some warm ∨
      ∃ outcome ∈ warmer.outcomes, outcome.warm = warm
  failed : ∀ outcome ∈ warmer.outcomes, outcome.succeeded = false →
    outcome.endedAt + backoffSecs * second ≤ warmer.trigger.backoffUntil
  succeeded : ∀ outcome ∈ warmer.outcomes, outcome.succeeded = true →
    warmer.trigger.lastPos ≠ none ∧
      outcome.warm.startedAt ≤ warmer.trigger.lastWarm
  last : warmer.trigger.lastPos =
    (warmer.outcomes.find? Outcome.succeeded).map fun outcome =>
      outcome.warm.pos
  orderly : Spacing.Orderly (60 * second) Warm.startedAt Warm.startedAt
    warmer.warms
  justified : ∀ warm ∈ warmer.warms, Justified env warmer.outcomes warm

theorem le_interval (settings : PositionWarmSettings) :
    (60 * second : ℚ) ≤ interval settings := by
  unfold interval
  apply mul_le_mul_of_nonneg_right (le_max_left _ _)
  exact Nat.cast_nonneg second

/-- An outcome of a warm which is no older than another one leaves that one
justified. -/
theorem Justified.cons {outcomes : List Outcome} {warm : Warm}
    (justified : Justified env outcomes warm) {outcome : Outcome}
    (later : warm.id ≤ outcome.warm.id) :
    Justified env (outcome :: outcomes) warm := by
  have apart : ¬ outcome.warm.id < warm.id := Nat.not_lt.mpr later
  refine ⟨justified.request, justified.sources, justified.should, ?_, ?_, ?_⟩
  · rw [justified.moved]
    unfold lastSuccess
    rw [List.find?_cons_of_neg (by simp [apart])]
  · intro other member earlier
    rcases List.mem_cons.mp member with rfl | old
    · exact absurd earlier apart
    · exact justified.waited other old earlier
  · intro other member earlier
    rcases List.mem_cons.mp member with rfl | old
    · exact absurd earlier apart
    · exact justified.backedOff other old earlier

theorem Timing.later (timing : Timing env warmer) {now : Nat}
    (later : warmer.clock ≤ now) : Timing env { warmer with clock := now } where
  numbered := timing.numbered
  started warm member := Nat.le_trans (timing.started warm member) later
  newest := timing.newest
  ended outcome member := by
    obtain ⟨known, order, before⟩ := timing.ended outcome member
    exact ⟨known, order, Nat.le_trans before later⟩
  closed := timing.closed
  failed := timing.failed
  succeeded := timing.succeeded
  last := timing.last
  orderly := timing.orderly
  justified := timing.justified

/-- Only the call of the warm under way changes. -/
theorem Timing.recall (timing : Timing env warmer) {warm : Warm} {call : Call}
    (active : warmer.active = some ⟨warm, call⟩) (goes : Call)
    (requests : List Request) (accepted : List (Nat × String)) :
    Timing env { warmer with
      active := some ⟨warm, goes⟩
      requests := requests
      accepted := accepted } := by
  have current : warmer.current = some warm := congrArg _ active
  refine ⟨timing.numbered, timing.started, ?_, timing.ended, ?_,
    timing.failed, timing.succeeded, timing.last, timing.orderly,
    timing.justified⟩
  · intro other same
    exact timing.newest other (current.trans same)
  · intro running other member
    rcases timing.closed running other member with now | past
    · exact .inl (current.symm.trans now)
    · exact .inr past

theorem Timing.halt (timing : Timing env warmer) (active : Option Active)
    (accepted : List (Nat × String))
    (part : ∀ warm, active.map Active.warm = some warm →
      warmer.current = some warm) :
    Timing env { warmer with
      stopped := true
      active := active
      accepted := accepted } := by
  refine ⟨timing.numbered, timing.started, ?_, timing.ended, ?_,
    timing.failed, timing.succeeded, timing.last, timing.orderly,
    timing.justified⟩
  · intro warm same
    exact timing.newest warm (part warm same)
  · intro running
    cases running

theorem Timing.unread (timing : Timing env warmer) :
    Timing env warmer.backOff := by
  refine ⟨timing.numbered, timing.started, timing.newest, timing.ended,
    timing.closed, ?_, timing.succeeded, timing.last, timing.orderly,
    timing.justified⟩
  intro outcome member _
  have before := (timing.ended outcome member).2.2
  exact Nat.add_le_add_right before _

/-- The warm under way ends with an outcome. -/
theorem Timing.ends (timing : Timing env warmer) {warm : Warm} {call : Call}
    (active : warmer.active = some ⟨warm, call⟩)
    (result : Option WarmResult) : Timing env (warmer.finish warm result) := by
  have current : warmer.current = some warm := congrArg _ active
  obtain ⟨known, numbered, latest, fresh⟩ := timing.newest warm current
  have begun : warm.startedAt ≤ warmer.clock := timing.started warm known
  have justified (outcome : Outcome) (same : outcome.warm = warm) :
      ∀ other ∈ warmer.warms,
        Justified env (outcome :: warmer.outcomes) other := by
    intro other member
    apply (timing.justified other member).cons
    have below := timing.numbered other member
    rw [same]
    omega
  have ended (outcome : Outcome) (same : outcome.warm = warm)
      (now : outcome.endedAt = warmer.clock) :
      ∀ other ∈ outcome :: warmer.outcomes, other.warm ∈ warmer.warms ∧
        other.warm.startedAt ≤ other.endedAt ∧
          other.endedAt ≤ warmer.clock := by
    intro other member
    rcases List.mem_cons.mp member with rfl | old
    · rw [same, now]
      exact ⟨known, begun, Nat.le_refl _⟩
    · exact timing.ended other old
  have closed (outcome : Outcome) (same : outcome.warm = warm)
      (running : warmer.stopped = false) : ∀ other ∈ warmer.warms,
        ∃ past ∈ outcome :: warmer.outcomes, past.warm = other := by
    intro other member
    rcases timing.closed running other member with now | ⟨past, old, rfl⟩
    · have equal : warm = other := Option.some.inj (current.symm.trans now)
      exact ⟨outcome, List.mem_cons_self, same.trans equal⟩
    · exact ⟨past, List.mem_cons_of_mem _ old, rfl⟩
  rcases finish_cases warmer warm result with ⟨stopped, halted⟩ |
      ⟨failed, backed⟩ | ⟨succeeded, noted⟩
  · rw [halted]
    have nothing : ∀ other, (none : Option Active).map Active.warm =
        some other → warmer.current = some other := by
      intro other same
      cases same
    have halting := timing.halt none warmer.accepted nothing
    rw [← stopped] at halting
    exact halting
  · rw [backed]
    refine ⟨timing.numbered, timing.started, ?_, ended _ rfl rfl, ?_, ?_, ?_,
      ?_, timing.orderly, justified _ rfl⟩
    · intro other none
      cases none
    · intro running other member
      exact .inr (closed _ rfl running other member)
    · intro outcome member _
      have before := (ended _ rfl rfl outcome member).2.2
      exact Nat.add_le_add_right before _
    · intro outcome member success
      rcases List.mem_cons.mp member with rfl | old
      · exact absurd (failed.symm.trans success) Bool.false_ne_true
      · exact timing.succeeded outcome old success
    · rw [List.find?_cons_of_neg (by simp [failed])]
      exact timing.last
  · rw [noted]
    refine ⟨timing.numbered, timing.started, ?_, ended _ rfl rfl, ?_, ?_, ?_,
      ?_, timing.orderly, justified _ rfl⟩
    · intro other none
      cases none
    · intro running other member
      exact .inr (closed _ rfl running other member)
    · intro outcome member failure
      rcases List.mem_cons.mp member with rfl | old
      · exact absurd (failure.symm.trans succeeded) Bool.false_ne_true
      · exact timing.failed outcome old failure
    · intro outcome member _
      refine ⟨Option.some_ne_none _, ?_⟩
      rcases List.mem_cons.mp member with rfl | old
      · exact Nat.le_refl _
      · exact latest _ (timing.ended outcome old).1
    · rw [List.find?_cons_of_pos succeeded]
      rfl

theorem interval_le_of_shouldWarm {pos last : Position}
    {regions : List Regions.SavedRegion} {settings : PositionWarmSettings}
    {trigger : WarmTrigger} {now : Nat}
    (should : shouldWarm env pos regions settings trigger now = true)
    (warmed : trigger.lastPos = some last) :
    (trigger.lastWarm : ℚ) + interval settings ≤ now := by
  unfold shouldWarm at should
  rw [warmed] at should
  have elapsed := (Bool.and_eq_true _ _).mp
    ((Bool.and_eq_true _ _).mp should).2
  have waited : ¬ (now : ℚ) - trigger.lastWarm < interval settings := by
    simpa using elapsed.1
  linarith

/-- The warm which `start` adds. -/
def begun (env : Environment) (warmer : PositionWarmer) (pos : Position)
    (store : RegionsStore) : Warm :=
  ⟨warmer.warms.length, pos, warmer.clock, store.positionWarm, store.regions,
    requestFor env pos store.positionWarm, warmer.trigger⟩

theorem start_eq (pos : Position) (store : RegionsStore)
    (configured : Bool) :
    ∃ call requests, (call = .unconfigured ∧ requests = warmer.requests ∨
        call = .posting ∧
          requests = .post warmer.warms.length :: warmer.requests) ∧
      warmer.start env pos store configured = { warmer with
        active := some ⟨warmer.begun env pos store, call⟩
        warms := warmer.begun env pos store :: warmer.warms
        requests := requests } := by
  cases configured with
  | true => exact ⟨_, _, .inr ⟨rfl, rfl⟩, rfl⟩
  | false => exact ⟨_, _, .inl ⟨rfl, rfl⟩, rfl⟩

section Starting

variable {pos : Position} {store : RegionsStore}

/-- When a fix is acted upon, every earlier warm has ended and its wait is
over. -/
theorem Timing.waited (timing : Timing env warmer)
    (should : shouldWarm env pos store.regions store.positionWarm
      warmer.trigger warmer.clock = true) {outcome : Outcome}
    (member : outcome ∈ warmer.outcomes)
    (succeeded : outcome.succeeded = true) :
    (outcome.warm.startedAt : ℚ) + interval store.positionWarm ≤
      warmer.clock := by
  obtain ⟨warmed, order⟩ := timing.succeeded outcome member succeeded
  obtain ⟨last, found⟩ := Option.ne_none_iff_exists'.mp warmed
  have elapsed := interval_le_of_shouldWarm should found
  have before : (outcome.warm.startedAt : ℚ) ≤ warmer.trigger.lastWarm :=
    Nat.cast_le.mpr order
  linarith

theorem Timing.spaced (timing : Timing env warmer)
    (running : warmer.stopped = false) (idle : warmer.active = none)
    (rested : warmer.trigger.backoffUntil ≤ warmer.clock)
    (should : shouldWarm env pos store.regions store.positionWarm
      warmer.trigger warmer.clock = true) {warm : Warm}
    (member : warm ∈ warmer.warms) :
    warm.startedAt + 60 * second ≤ warmer.clock := by
  have none : warmer.current = none := by
    unfold current
    rw [idle]
    rfl
  rcases timing.closed running warm member with now | ⟨outcome, past, rfl⟩
  · cases none.symm.trans now
  · cases succeeded : outcome.succeeded with
    | true =>
        have waited := timing.waited should past succeeded
        have floor := le_interval store.positionWarm
        have sum : ((outcome.warm.startedAt + 60 * second : Nat) : ℚ) ≤
            warmer.clock := by
          rw [Nat.cast_add, Nat.cast_mul]
          have sixty : ((60 : Nat) : ℚ) = 60 := rfl
          rw [sixty]
          linarith
        exact Nat.cast_le.mp sum
    | false =>
        have backed := timing.failed outcome past succeeded
        have order := (timing.ended outcome past).2.1
        have longer : 60 * second ≤ backoffSecs * second := by decide
        omega

theorem Timing.start (timing : Timing env warmer)
    (running : warmer.stopped = false) (idle : warmer.active = none)
    (rested : warmer.trigger.backoffUntil ≤ warmer.clock)
    (sources : env.selectWarmable store.positionWarm.sources ≠ [])
    (should : shouldWarm env pos store.regions store.positionWarm
      warmer.trigger warmer.clock = true) (configured : Bool) :
    Timing env (warmer.start env pos store configured) := by
  obtain ⟨call, requests, -, same⟩ := start_eq pos store configured
  rw [same]
  have none : warmer.current = none := by
    unfold current
    rw [idle]
    rfl
  refine ⟨?_, ?_, ?_, ?_, ?_, timing.failed, timing.succeeded, timing.last,
    ?_, ?_⟩
  · intro warm member
    rcases List.mem_cons.mp member with rfl | old
    · exact Nat.lt_succ_self _
    · exact Nat.lt_succ_of_lt (timing.numbered warm old)
  · intro warm member
    rcases List.mem_cons.mp member with rfl | old
    · exact Nat.le_refl _
    · exact timing.started warm old
  · intro warm now
    cases now
    refine ⟨List.mem_cons_self, rfl, ?_, ?_⟩
    · intro other member
      rcases List.mem_cons.mp member with rfl | old
      · exact Nat.le_refl _
      · exact timing.started other old
    · intro outcome member
      exact timing.numbered _ (timing.ended outcome member).1
  · intro outcome member
    obtain ⟨known, order, before⟩ := timing.ended outcome member
    exact ⟨List.mem_cons_of_mem _ known, order, before⟩
  · intro still warm member
    rcases List.mem_cons.mp member with rfl | old
    · exact .inl rfl
    · rcases timing.closed running warm old with now | past
      · cases none.symm.trans now
      · exact .inr past
  · apply timing.orderly.cons (Nat.le_refl _)
    intro earlier member
    exact ⟨timing.spaced running idle rested should member,
      timing.started earlier member⟩
  · intro warm member
    rcases List.mem_cons.mp member with rfl | old
    · refine ⟨rfl, sources, should, ?_, ?_, ?_⟩
      · have all : (warmer.outcomes.find? fun outcome =>
            outcome.succeeded && decide (outcome.warm.id <
              warmer.warms.length)) =
            warmer.outcomes.find? Outcome.succeeded := by
          apply List.find?_congr
          intro outcome known
          have below := timing.numbered _ (timing.ended outcome known).1
          simp [below]
        exact timing.last.trans (congrArg _ all.symm)
      · intro outcome known _ succeeded
        exact timing.waited should known succeeded
      · intro outcome known _ failed
        exact Nat.le_trans (timing.failed outcome known failed) rested
    · exact timing.justified warm old

end Starting

theorem Move.timing (move : Move env warmer next)
    (timing : Timing env warmer) : Timing env next := by
  cases move with
  | ignored => exact timing
  | unread running => exact timing.unread
  | started running idle pos store configured rested sources should =>
      exact timing.start running idle rested sources should configured
  | finished warm call active result => exact timing.ends active result
  | accepted running warm active jobId => exact timing.recall active _ _ _
  | acceptedLate warm active late jobId =>
      have nothing : ∀ other, (none : Option Active).map Active.warm =
          some other → warmer.current = some other := by
        intro other same
        cases same
      have halting := timing.halt none ((warm.id, jobId) :: warmer.accepted)
        nothing
      rw [← late] at halting
      exact halting
  | retried running warm jobId poll attempt wakes active =>
      exact timing.recall active _ _ _
  | polled running warm jobId poll wakes active more =>
      exact timing.recall active _ _ _
  | retries warm jobId poll attempt wakes active more =>
      exact timing.recall active _ _ _
  | rests warm jobId poll attempt wakes active =>
      exact timing.recall active _ _ _
  | stopped => exact timing.halt warmer.active warmer.accepted fun _ => id

/-! ## Traffic -/

def pollsOf (warmer : PositionWarmer) (id : Nat) : Nat :=
  warmer.requests.countP fun request => request.polls id

structure Traffic (warmer : PositionWarmer) : Prop where
  known : ∀ request ∈ warmer.requests, request.warm < warmer.warms.length
  sorted : (warmer.requests.map Request.warm).Pairwise (· ≥ ·)
  posts : ∀ id, warmer.requests.count (.post id) ≤ 1
  polls : ∀ id, warmer.pollsOf id ≤ maxPolls
  bounded : ∀ active, warmer.active = some active → active.call.Bounded ∧
    warmer.pollsOf active.warm.id ≤ active.call.spent
  awaited : ∀ active, warmer.active = some active → active.call.job = none →
    ∀ answer ∈ warmer.accepted, answer.1 ≠ active.warm.id
  named : ∀ active jobId, warmer.active = some active →
    active.call.job = some jobId → (active.warm.id, jobId) ∈ warmer.accepted
  jobs : ∀ id jobId, .get id jobId ∈ warmer.requests →
    (id, jobId) ∈ warmer.accepted
  unique : (warmer.accepted.map Prod.fst).Nodup
  answered : ∀ answer ∈ warmer.accepted, answer.1 < warmer.warms.length

theorem Traffic.idle (traffic : Traffic warmer) (clock : Nat)
    (trigger : WarmTrigger) (stopped : Bool) (outcomes : List Outcome) :
    Traffic { warmer with
      clock := clock
      trigger := trigger
      stopped := stopped
      active := none
      outcomes := outcomes } where
  known := traffic.known
  sorted := traffic.sorted
  posts := traffic.posts
  polls := traffic.polls
  bounded _ none := by cases none
  awaited _ none := by cases none
  named _ _ none := by cases none
  jobs := traffic.jobs
  unique := traffic.unique
  answered := traffic.answered

/-- Nothing of the traffic is in the other fields. -/
theorem Traffic.besides (traffic : Traffic warmer) (clock : Nat)
    (trigger : WarmTrigger) (stopped : Bool) :
    Traffic { warmer with
      clock := clock
      trigger := trigger
      stopped := stopped } :=
  ⟨traffic.known, traffic.sorted, traffic.posts, traffic.polls,
    traffic.bounded, traffic.awaited, traffic.named, traffic.jobs,
    traffic.unique, traffic.answered⟩

theorem Traffic.finish (traffic : Traffic warmer) (warm : Warm)
    (result : Option WarmResult) : Traffic (warmer.finish warm result) := by
  rcases finish_cases warmer warm result with ⟨-, same⟩ | ⟨-, same⟩ |
      ⟨-, same⟩
  · rw [same]
    exact traffic.idle _ _ _ _
  · rw [same]
    exact traffic.idle _ _ _ _
  · rw [same]
    exact traffic.idle _ _ _ _

/-- The POST is answered with a job. -/
theorem Traffic.accept (traffic : Traffic warmer) {warm : Warm}
    (active : warmer.active = some ⟨warm, .posting⟩)
    (numbered : warm.id + 1 = warmer.warms.length) (jobId : String) :
    Traffic { warmer with
      accepted := (warm.id, jobId) :: warmer.accepted
      active := none } where
  known := traffic.known
  sorted := traffic.sorted
  posts := traffic.posts
  polls := traffic.polls
  bounded _ none := by cases none
  awaited _ none := by cases none
  named _ _ none := by cases none
  jobs id jobId member := List.mem_cons_of_mem _ (traffic.jobs id jobId member)
  unique := by
    rw [List.map_cons, List.nodup_cons]
    refine ⟨?_, traffic.unique⟩
    intro inside
    obtain ⟨answer, member, same⟩ := List.mem_map.mp inside
    exact traffic.awaited _ active rfl answer member same
  answered := by
    intro answer member
    rcases List.mem_cons.mp member with rfl | old
    · exact Nat.lt_of_lt_of_eq (Nat.lt_succ_self _) numbered
    · exact traffic.answered answer old

theorem pollsOf_asks (warmer : PositionWarmer) (warm : Warm) (jobId : String)
    (poll attempt id : Nat) :
    (warmer.asks warm jobId poll attempt).pollsOf id =
      warmer.pollsOf id + if warm.id = id then 1 else 0 := by
  unfold pollsOf asks
  rw [List.countP_cons]
  simp [Request.polls]

theorem Traffic.asks (traffic : Traffic warmer) {warm : Warm}
    (numbered : warm.id + 1 = warmer.warms.length) {jobId : String}
    {poll attempt : Nat}
    (bounded : (Call.polling jobId poll attempt).Bounded)
    (sent : warmer.pollsOf warm.id + 1 ≤
      (Call.polling jobId poll attempt).spent)
    (accepted : (warm.id, jobId) ∈ warmer.accepted) :
    Traffic (warmer.asks warm jobId poll attempt) where
  known := by
    intro request member
    rcases List.mem_cons.mp member with rfl | old
    · exact Nat.lt_of_lt_of_eq (Nat.lt_succ_self _) numbered
    · exact traffic.known request old
  sorted := by
    apply List.pairwise_cons.mpr
    refine ⟨?_, traffic.sorted⟩
    intro id member
    obtain ⟨request, old, rfl⟩ := List.mem_map.mp member
    have below := traffic.known request old
    change request.warm ≤ warm.id
    omega
  posts := by
    intro id
    have other : Request.get warm.id jobId ≠ .post id := by
      intro same
      cases same
    have count : (warmer.asks warm jobId poll attempt).requests.count
        (.post id) = warmer.requests.count (.post id) :=
      List.count_cons_of_ne other
    rw [count]
    exact traffic.posts id
  polls := by
    intro id
    rw [pollsOf_asks]
    by_cases same : warm.id = id
    · rw [if_pos same, ← same]
      exact Nat.le_trans sent (Call.spent_le bounded)
    · rw [if_neg same]
      exact traffic.polls id
  bounded := by
    intro active now
    cases now
    rw [pollsOf_asks, if_pos rfl]
    exact ⟨bounded, sent⟩
  awaited := by
    intro active now unnamed
    cases now
    cases unnamed
  named := by
    intro active other now same
    cases now
    cases same
    exact accepted
  jobs := by
    intro id other member
    rcases List.mem_cons.mp member with same | old
    · cases same
      exact accepted
    · exact traffic.jobs id other old
  unique := traffic.unique
  answered := traffic.answered

/-- The call goes to sleep. -/
theorem Traffic.sleeps (traffic : Traffic warmer) {warm : Warm}
    {call goes : Call} (active : warmer.active = some ⟨warm, call⟩)
    (bounded : goes.Bounded) (spent : call.spent ≤ goes.spent)
    (job : goes.job = call.job) : Traffic (warmer.setCall warm goes) where
  known := traffic.known
  sorted := traffic.sorted
  posts := traffic.posts
  polls := traffic.polls
  bounded := by
    intro other now
    cases now
    exact ⟨bounded, Nat.le_trans (traffic.bounded _ active).2 spent⟩
  awaited := by
    intro other now unnamed
    cases now
    exact traffic.awaited ⟨warm, call⟩ active (job.symm.trans unnamed)
  named := by
    intro other jobId now same
    cases now
    exact traffic.named ⟨warm, call⟩ jobId active (job.symm.trans same)
  jobs := traffic.jobs
  unique := traffic.unique
  answered := traffic.answered

theorem Traffic.fresh (traffic : Traffic warmer) :
    warmer.pollsOf warmer.warms.length = 0 ∧
      warmer.requests.count (.post warmer.warms.length) = 0 := by
  constructor
  · apply List.countP_eq_zero.mpr
    intro request member polls
    have below := traffic.known request member
    cases request with
    | post id => cases polls
    | get id jobId =>
        have same : id = warmer.warms.length := by
          simpa [Request.polls] using polls
        exact Nat.lt_irrefl _ (same ▸ below)
  · apply List.count_eq_zero.mpr
    intro member
    exact Nat.lt_irrefl _ (traffic.known _ member)

theorem Traffic.start (traffic : Traffic warmer) (env : Environment)
    (pos : Position) (store : RegionsStore) (configured : Bool) :
    Traffic (warmer.start env pos store configured) := by
  obtain ⟨call, requests, sends, same⟩ :=
    @start_eq env warmer pos store configured
  obtain ⟨unpolled, unposted⟩ := traffic.fresh
  rw [same]
  have unnamed : call.job = none ∧ call.Bounded := by
    rcases sends with ⟨rfl, -⟩ | ⟨rfl, -⟩
    · exact ⟨rfl, trivial⟩
    · exact ⟨rfl, trivial⟩
  have polls (id : Nat) : (requests.countP fun request => request.polls id) =
      warmer.pollsOf id := by
    rcases sends with ⟨-, rfl⟩ | ⟨-, rfl⟩
    · rfl
    · exact List.countP_cons_of_neg (by simp [Request.polls])
  refine ⟨?_, ?_, ?_, ?_, ?_, ?_, ?_, ?_, traffic.unique, ?_⟩
  · intro request member
    rcases sends with ⟨-, rfl⟩ | ⟨-, rfl⟩
    · exact Nat.lt_succ_of_lt (traffic.known request member)
    · rcases List.mem_cons.mp member with rfl | old
      · exact Nat.lt_succ_self _
      · exact Nat.lt_succ_of_lt (traffic.known request old)
  · rcases sends with ⟨-, rfl⟩ | ⟨-, rfl⟩
    · exact traffic.sorted
    · apply List.pairwise_cons.mpr
      refine ⟨?_, traffic.sorted⟩
      intro id member
      obtain ⟨request, old, rfl⟩ := List.mem_map.mp member
      exact Nat.le_of_lt (traffic.known request old)
  · intro id
    rcases sends with ⟨-, rfl⟩ | ⟨-, rfl⟩
    · exact traffic.posts id
    · by_cases newest : warmer.warms.length = id
      · rw [← newest]
        dsimp only
        rw [List.count_cons_self, unposted]
      · have other : Request.post warmer.warms.length ≠ .post id := by
          intro same
          cases same
          exact newest rfl
        dsimp only
        rw [List.count_cons_of_ne other]
        exact traffic.posts id
  · intro id
    exact (polls id).trans_le (traffic.polls id)
  · intro active now
    cases now
    exact ⟨unnamed.2, (polls _).trans_le (unpolled.trans_le (Nat.zero_le _))⟩
  · intro active now _ answer member same
    cases now
    exact Nat.lt_irrefl _ (same ▸ traffic.answered answer member)
  · intro active jobId now named
    cases now
    cases unnamed.1.symm.trans named
  · intro id jobId member
    rcases sends with ⟨-, rfl⟩ | ⟨-, rfl⟩
    · exact traffic.jobs id jobId member
    · rcases List.mem_cons.mp member with same | old
      · cases same
      · exact traffic.jobs id jobId old
  · intro answer member
    exact Nat.lt_succ_of_lt (traffic.answered answer member)

theorem Move.traffic (move : Move env warmer next)
    (timing : Timing env warmer) (traffic : Traffic warmer) :
    Traffic next := by
  have numbered {warm : Warm} {call : Call}
      (active : warmer.active = some ⟨warm, call⟩) :
      warm.id + 1 = warmer.warms.length :=
    (timing.newest warm (congrArg _ active)).2.1
  cases move with
  | ignored => exact traffic
  | unread running => exact traffic.besides _ _ _
  | started running idle pos store configured rested sources should =>
      exact traffic.start env pos store configured
  | finished warm call active result => exact traffic.finish warm result
  | accepted running warm active jobId =>
      have accepted := traffic.accept active (numbered active) jobId
      have spent := (traffic.bounded _ active).2
      apply accepted.asks (numbered active) ⟨by decide, by decide⟩ _
        List.mem_cons_self
      exact Nat.succ_le_succ spent
  | acceptedLate warm active late jobId =>
      exact traffic.accept active (numbered active) jobId
  | retried running warm jobId poll attempt wakes active =>
      obtain ⟨bounded, spent⟩ := traffic.bounded _ active
      exact traffic.asks (numbered active) bounded (Nat.succ_le_succ spent)
        (traffic.named _ jobId active rfl)
  | polled running warm jobId poll wakes active more =>
      have spent := (traffic.bounded _ active).2
      exact traffic.asks (numbered active) ⟨more, by decide⟩
        (Nat.succ_le_succ spent) (traffic.named _ jobId active rfl)
  | retries warm jobId poll attempt wakes active more =>
      have bounded := (traffic.bounded _ active).1
      exact traffic.sleeps active ⟨bounded.1, more⟩ (Nat.le_refl _) rfl
  | rests warm jobId poll attempt wakes active =>
      have bounded := (traffic.bounded _ active).1
      have goes : (Call.resting jobId poll wakes).Bounded := bounded.1
      have within : attempt + 1 ≤ maxRetries := bounded.2
      have spent : (Call.polling jobId poll attempt).spent ≤
          (Call.resting jobId poll wakes).spent := by
        change maxRetries * poll + attempt + 1 ≤ maxRetries * (poll + 1)
        rw [Nat.mul_succ]
        omega
      exact traffic.sleeps active goes spent rfl
  | stopped => exact traffic.besides _ _ _

/-! ## Runs -/

structure Sound (env : Environment) (warmer : PositionWarmer) : Prop where
  timing : Timing env warmer
  traffic : Traffic warmer

theorem Sound.step (sound : Sound env warmer) {label : Label}
    (stepped : warmer.step env label = some next) : Sound env next := by
  obtain ⟨now, later, move⟩ := move_of_step stepped
  have timing := sound.timing.later later
  have traffic := sound.traffic.besides now warmer.trigger warmer.stopped
  exact ⟨move.timing timing, move.traffic timing traffic⟩

theorem sound_created (env : Environment) (now : Nat) :
    Sound env (createPositionWarmer now) := by
  constructor
  · refine ⟨?_, ?_, ?_, ?_, ?_, ?_, ?_, rfl, .nil, ?_⟩
    · intro warm member
      cases member
    · intro warm member
      cases member
    · intro warm none
      cases none
    · intro outcome member
      cases member
    · intro running warm member
      cases member
    · intro outcome member
      cases member
    · intro outcome member
      cases member
    · intro warm member
      cases member
  · refine ⟨?_, .nil, fun _ => Nat.zero_le _, fun _ => Nat.zero_le _, ?_, ?_,
      ?_, ?_, .nil, ?_⟩
    · intro request member
      cases member
    · intro active none
      cases none
    · intro active none
      cases none
    · intro active jobId none
      cases none
    · intro id jobId member
      cases member
    · intro answer member
      cases member

theorem sound_of_reachable
    (reached : (warmerMachine env).Reachable warmer) : Sound env warmer := by
  apply reached.invariant (motive := Sound env)
  · intro start initial
    obtain ⟨now, rfl⟩ := initial
    exact sound_created env now
  · intro state label after sound stepped
    exact sound.step stepped

/-! ## Behind a stop -/

/-- A stopped warmer has what it had, but for the answer to a POST. -/
structure Rests (before after : PositionWarmer) : Prop where
  stopped : after.stopped = true
  warms : after.warms = before.warms
  requests : after.requests = before.requests
  trigger : after.trigger = before.trigger

theorem Move.silent (move : Move env warmer next)
    (stopped : warmer.stopped = true) : Rests warmer next := by
  have never (running : warmer.stopped = false) : False :=
    Bool.false_ne_true (running.symm.trans stopped)
  cases move with
  | ignored => exact ⟨stopped, rfl, rfl, rfl⟩
  | unread running => cases never running
  | started running idle pos store configured rested sources should =>
      cases never running
  | finished warm call active result =>
      have halted : warmer.finish warm result =
          { warmer with active := none } := by
        unfold finish
        rw [stopped]
        rfl
      rw [halted]
      exact ⟨stopped, rfl, rfl, rfl⟩
  | accepted running warm active jobId => cases never running
  | acceptedLate warm active late jobId => exact ⟨late, rfl, rfl, rfl⟩
  | retried running warm jobId poll attempt wakes active =>
      cases never running
  | polled running warm jobId poll wakes active more => cases never running
  | retries warm jobId poll attempt wakes active more =>
      exact ⟨stopped, rfl, rfl, rfl⟩
  | rests warm jobId poll attempt wakes active =>
      exact ⟨stopped, rfl, rfl, rfl⟩
  | stopped => exact ⟨rfl, rfl, rfl, rfl⟩

theorem rests_exec {labels : List Label} (stopped : warmer.stopped = true)
    (run : (warmerMachine env).exec warmer labels = some next) :
    Rests warmer next := by
  apply Machine.exec_preserves (motive := Rests warmer) _ run
  · exact ⟨stopped, rfl, rfl, rfl⟩
  · intro state label after rests stepped
    obtain ⟨now, -, move⟩ := move_of_step stepped
    have further := move.silent rests.stopped
    exact ⟨further.stopped, further.warms.trans rests.warms,
      further.requests.trans rests.requests,
      further.trigger.trans rests.trigger⟩

/-- The reasons for a warm, given the outcomes so far. -/
structure Warranted (env : Environment) (outcomes : List Outcome)
    (warm : Warm) : Prop where
  request : warm.request = requestFor env warm.pos warm.settings
  sources : warm.request.sources ≠ []
  enabled : warm.settings.enabled = true
  outside : ∀ region ∈ warm.regions,
    region.status = .ready ∨ region.status = .downloading →
      insideBox warm.pos region.bbox = false
  away : ∀ outcome, lastSuccess outcomes warm = some outcome →
    warm.settings.moveThresholdMeters ≤
      env.distance warm.pos outcome.warm.pos
  waited : ∀ outcome ∈ outcomes, outcome.warm.id < warm.id →
    outcome.succeeded = true →
      (outcome.warm.startedAt : ℚ) + interval warm.settings ≤ warm.startedAt
  backedOff : ∀ outcome ∈ outcomes, outcome.warm.id < warm.id →
    outcome.succeeded = false →
      outcome.endedAt + backoffSecs * second ≤ warm.startedAt

theorem outside_of_insideAnyRegion {pos : Position}
    {regions : List Regions.SavedRegion}
    (outside : insideAnyRegion pos regions = false)
    {region : Regions.SavedRegion}
    (member : region ∈ regions)
    (covered : region.status = .ready ∨ region.status = .downloading) :
    insideBox pos region.bbox = false := by
  have excluded := List.any_eq_false.mp outside region member
  rcases covered with ready | downloading
  · simpa [ready] using excluded
  · simpa [downloading] using excluded

theorem Justified.warranted {outcomes : List Outcome} {warm : Warm}
    (justified : Justified env outcomes warm) :
    Warranted env outcomes warm := by
  have should := justified.should
  unfold shouldWarm at should
  simp only [Bool.and_eq_true, Bool.not_eq_true'] at should
  obtain ⟨⟨⟨enabled, outside⟩, -⟩, apart⟩ := should
  refine ⟨justified.request, justified.sources, enabled,
    fun region member covered => outside_of_insideAnyRegion outside member
      covered, ?_, justified.waited, justified.backedOff⟩
  intro outcome newest
  have last : warm.trigger.lastPos = some outcome.warm.pos := by
    rw [justified.moved, newest]
    rfl
  rw [last] at apart
  simp only [Bool.and_eq_true, Bool.not_eq_true',
    decide_eq_false_iff_not, not_lt] at apart
  exact apart.2

end PositionWarmer

/-! ## The warmer -/

/-- What the container and the operator may rely on. -/
structure Measured (env : Environment) (warmer : PositionWarmer) : Prop where
  /-- Warms start at least a minute apart. -/
  spaced : Spacing.Orderly (60 * second) Warm.startedAt Warm.startedAt
    warmer.warms
  perWindow : ∀ start minutes, (warmer.warms.filter fun warm =>
    decide (start ≤ warm.startedAt) && decide (warm.startedAt <
      start + minutes * (60 * second))).length ≤ minutes
  /-- Each outside of the saved coverage, behind the interval or the backoff,
  and away from the last position which was warmed. -/
  warranted : ∀ warm ∈ warmer.warms,
    PositionWarmer.Warranted env warmer.outcomes warm
  remembered : warmer.trigger.lastPos =
    (warmer.outcomes.find? Outcome.succeeded).map fun outcome =>
      outcome.warm.pos
  /-- One warm at a time. -/
  sorted : (warmer.requests.map Request.warm).Pairwise (· ≥ ·)
  posts : ∀ id, warmer.requests.count (.post id) ≤ 1
  polls : ∀ id, warmer.pollsOf id ≤ 60
  jobs : ∀ id jobId, .get id jobId ∈ warmer.requests →
    (id, jobId) ∈ warmer.accepted
  unique : (warmer.accepted.map Prod.fst).Nodup
  /-- Nothing leaves a stopped warmer. -/
  silent : warmer.stopped = true → ∀ labels later,
    (warmerMachine env).exec warmer labels = some later →
      PositionWarmer.Rests warmer later

def sampleWarmEnvironment : Environment where
  distance left right := (left.latitude - right.latitude) * 111320
  boxes pos _ := (⟨pos.longitude, pos.latitude, pos.longitude, pos.latitude⟩,
    none)
  selectWarmable sources := sources

def sampleSettings : PositionWarmSettings :=
  ⟨true, 2000, 500, 30, 12, [[110]]⟩

def sampleStore : RegionsStore :=
  ⟨[⟨[114], [114], ⟨10, 50, 11, 51⟩, [[110]], 3, 9, 0, none, 0, .ready⟩],
    sampleSettings, 30⟩

def sampleSnapshot (state : String) : Option Answer :=
  some ⟨200, some (.object [("total", .number (.unsigned 2)),
    ("done", .number (.unsigned 2)), ("skipped", .number (.unsigned 0)),
    ("bytes", .number (.unsigned 9)), ("errors", .number (.unsigned 0)),
    ("state", .string state)])⟩

def sampleWarmJob : String := "warm-0123456789abcdef0123456789abcdef-7"

def sampleWarmLabels : List Label :=
  [.onPosition 0 ⟨some (101 / 2), some (21 / 2)⟩ (some sampleStore) true,
    .onPosition second ⟨some 52, some (21 / 2)⟩ (some sampleStore) true,
    .answer (2 * second)
      (some ⟨202, some (.object [("jobId", .string sampleWarmJob)])⟩),
    .answer (3 * second) (some ⟨503, none⟩),
    .wake (4 * second),
    .answer (5 * second) (sampleSnapshot "running"),
    .wake (6 * second),
    .answer (7 * second) (sampleSnapshot "done"),
    .onPosition (60 * second) ⟨some 53, some (21 / 2)⟩ (some sampleStore) true,
    .onPosition (61 * second) ⟨some 53, some (21 / 2)⟩ (some sampleStore) true,
    .answer (62 * second) (some ⟨409, none⟩)]

end ChartLocker.Plugin.PositionWarm
