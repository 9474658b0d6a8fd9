import ChartLocker.Library.Machine
import Mathlib.Logic.Function.Basic

/-!
# The queue of chart rescans

`rescanCharts` keeps one queue for a registry.  A call marks the queue dirty
and starts its loop if none runs; the loop scans as long as the queue is dirty
and then settles the promise which all callers of the queue share.  A scan
begins in the turn of the call or of the loop which starts it.  It ends, and
the loop goes on in a later turn, so that calls come between the two.
-/

namespace ChartLocker.Plugin

open Library

inductive ScanState where
  | running
  | completed
  | threw
deriving DecidableEq, Repr

inductive Completion where
  | pending
  | resolved
  | rejected
deriving DecidableEq, Repr

/-- What the loop of a queue awaits: its scan, or its turn after the scan. -/
inductive ScanLoop where
  | scanning
  | settled (completed : Bool)
deriving DecidableEq, Repr

/-- The scan which a loop awaits. -/
def ScanLoop.scanState : ScanLoop → ScanState
  | .scanning => .running
  | .settled true => .completed
  | .settled false => .threw

variable {Deps : Type}

structure ScanQueue (Deps : Type) where
  running : Option ScanLoop
  dirty : Bool
  deps : Deps
  /-- The promise of the queue. -/
  completion : Nat
deriving DecidableEq, Repr

structure ChartScan (Deps : Type) where
  deps : Deps
  state : ScanState
deriving DecidableEq, Repr

/-- A call, the promise it returned, and how many scans had begun. -/
structure RescanCall where
  completion : Nat
  before : Nat
deriving DecidableEq, Repr

/-- The queue of one registry, with the promises, scans and calls so far. -/
structure Rescans (Deps : Type) where
  queue : Option (ScanQueue Deps)
  promises : Nat
  completions : Nat → Completion
  /-- The latest scan first. -/
  scans : List (ChartScan Deps)
  calls : List RescanCall

inductive RescanLabel (Deps : Type) where
  | rescan (deps : Deps)
  /-- The running scan ends. -/
  | settle (completed : Bool)
  /-- The loop goes on. -/
  | resume

namespace Rescans

/-- The promise of a queue is settled, and the queue is deleted. -/
def finish (rescans : Rescans Deps) (queue : ScanQueue Deps)
    (completion : Completion) : Rescans Deps :=
  { rescans with
    queue := none
    completions :=
      Function.update rescans.completions queue.completion completion }

/-- The head of the loop. -/
def loop (rescans : Rescans Deps) (queue : ScanQueue Deps) : Rescans Deps :=
  if queue.dirty then
    { rescans with
      queue := some { queue with
        dirty := false
        running := some .scanning }
      scans := ⟨queue.deps, .running⟩ :: rescans.scans }
  else
    rescans.finish queue .resolved

def rescanCharts (rescans : Rescans Deps) (deps : Deps) : Rescans Deps :=
  let queue := rescans.queue.getD ⟨none, false, deps, rescans.promises⟩
  let promises :=
    if rescans.queue.isNone then rescans.promises + 1 else rescans.promises
  let marked := { queue with
    deps := deps
    dirty := true }
  let called := { rescans with
    queue := some marked
    promises := promises
    calls := ⟨queue.completion, rescans.scans.length⟩ :: rescans.calls }
  match queue.running with
  | none => called.loop marked
  | some _ => called

def settle (rescans : Rescans Deps) (completed : Bool) :
    Option (Rescans Deps) :=
  match rescans.queue, rescans.scans with
  | some queue, scan :: earlier =>
      if queue.running = some .scanning then
        some { rescans with
          queue := some { queue with running := some (.settled completed) }
          scans := { scan with
            state := (ScanLoop.settled completed).scanState } :: earlier }
      else
        none
  | _, _ => none

def resume (rescans : Rescans Deps) : Option (Rescans Deps) :=
  rescans.queue.bind fun queue =>
    match queue.running with
    | some (.settled true) => some (rescans.loop queue)
    | some (.settled false) => some (rescans.finish queue .rejected)
    | _ => none

def step (rescans : Rescans Deps) :
    RescanLabel Deps → Option (Rescans Deps)
  | .rescan deps => some (rescans.rescanCharts deps)
  | .settle completed => rescans.settle completed
  | .resume => rescans.resume

def initial : Rescans Deps where
  queue := none
  promises := 0
  completions := fun _ => .pending
  scans := []
  calls := []

def machine (Deps : Type) : Machine (Rescans Deps) (RescanLabel Deps) where
  initial rescans := rescans = initial
  step := step

/-! ## What callers may expect -/

/-- A call has been made for which the loop has to scan again. -/
def owes (rescans : Rescans Deps) : Bool :=
  rescans.queue.any ScanQueue.dirty

/-- The scans which have begun after a call. -/
def begunAfter (rescans : Rescans Deps) (call : RescanCall) :
    List (ChartScan Deps) :=
  rescans.scans.take (rescans.scans.length - call.before)

/-- For every call a scan has begun after it or is owed. -/
def Followed (rescans : Rescans Deps) : Prop :=
  ∀ call ∈ rescans.calls,
    call.before < rescans.scans.length ∨ rescans.owes = true

/-- At most one scan runs, a promise has resolved only behind a completed scan
which began after the call, and every call is followed by a scan. -/
structure Served (rescans : Rescans Deps) : Prop where
  oneAtATime : (rescans.scans.filter fun scan =>
    decide (scan.state = .running)).length ≤ 1
  resolved : ∀ call ∈ rescans.calls,
    rescans.completions call.completion = .resolved →
      ∃ scan ∈ rescans.begunAfter call, scan.state = .completed
  followed : rescans.Followed

/-- The scan of the loop has thrown, and another one is owed. -/
def loses (rescans : Rescans Deps) : Bool :=
  rescans.queue.any fun queue =>
    queue.dirty && decide (queue.running = some (.settled false))

/-- The loop does not go on after a scan which threw while a scan is owed. -/
def Spares (rescans : Rescans Deps) : RescanLabel Deps → Prop
  | .resume => rescans.loses = false
  | _ => True

instance (rescans : Rescans Deps) :
    ∀ label, Decidable (rescans.Spares label)
  | .resume => inferInstanceAs (Decidable (rescans.loses = false))
  | .rescan _ => .isTrue trivial
  | .settle _ => .isTrue trivial

/-! ## The invariant -/

/-- A completed scan has begun after the call. -/
def Covered (rescans : Rescans Deps) (call : RescanCall) : Prop :=
  ∃ scan ∈ rescans.begunAfter call, scan.state = .completed

/-- What the turns of the loop keep, whatever its queue does. -/
structure Kept (rescans : Rescans Deps) : Prop where
  fresh : ∀ number, rescans.promises ≤ number →
    rescans.completions number = .pending
  made : ∀ call ∈ rescans.calls, call.completion < rescans.promises ∧
    call.before ≤ rescans.scans.length
  resolved : ∀ call ∈ rescans.calls,
    rescans.completions call.completion = .resolved → rescans.Covered call

/-- The queue of a loop, its promise, and the scan which the loop awaits. -/
structure Runs (rescans : Rescans Deps) (queue : ScanQueue Deps) : Prop where
  promised : queue.completion < rescans.promises
  pending : rescans.completions queue.completion = .pending
  awaits : ∃ loop latest earlier, queue.running = some loop ∧
    rescans.scans = latest :: earlier ∧ latest.state = loop.scanState ∧
      ∀ scan ∈ earlier, scan.state ≠ .running
  clean : queue.dirty = false → ∀ call ∈ rescans.calls,
    call.completion = queue.completion →
      call.before < rescans.scans.length
  marked : queue.dirty = true →
    ∃ call ∈ rescans.calls, call.before = rescans.scans.length

structure Sound (rescans : Rescans Deps) : Prop extends Kept rescans where
  idle : rescans.queue = none → ∀ scan ∈ rescans.scans,
    scan.state ≠ .running
  runs : ∀ queue, rescans.queue = some queue → rescans.Runs queue

section Scans

variable {rescans : Rescans Deps} {call : RescanCall}

/-- A further scan uncovers no call. -/
theorem covered_cons {scans : List (ChartScan Deps)} {scan : ChartScan Deps}
    (covered : Covered { rescans with scans := scans } call) :
    Covered { rescans with scans := scan :: scans } call := by
  obtain ⟨found, member, completed⟩ := covered
  refine ⟨found, ?_, completed⟩
  have positive := List.length_pos_of_mem member
  simp only [begunAfter, List.length_take, List.length_cons]
    at member positive ⊢
  have count : scans.length + 1 - call.before =
      scans.length - call.before + 1 := by omega
  rw [count, List.take_succ_cons]
  exact List.mem_cons_of_mem _ member

/-- Neither does the end of the running scan. -/
theorem covered_settle {latest ended : ChartScan Deps}
    {earlier : List (ChartScan Deps)} (running : latest.state = .running)
    (covered : Covered { rescans with scans := latest :: earlier } call) :
    Covered { rescans with scans := ended :: earlier } call := by
  obtain ⟨found, member, completed⟩ := covered
  refine ⟨found, ?_, completed⟩
  simp only [begunAfter, List.length_cons] at member ⊢
  cases count : earlier.length + 1 - call.before with
  | zero =>
      rw [count] at member
      exact absurd member List.not_mem_nil
  | succ rest =>
      rw [count, List.take_succ_cons] at member
      rw [List.take_succ_cons]
      rcases List.mem_cons.mp member with rfl | later
      · rw [running] at completed
        cases completed
      · exact List.mem_cons_of_mem _ later

/-- The latest scan has begun after every call before it. -/
theorem covered_of_latest {latest : ChartScan Deps}
    {earlier : List (ChartScan Deps)}
    (scans : rescans.scans = latest :: earlier)
    (before : call.before < rescans.scans.length)
    (completed : latest.state = .completed) : rescans.Covered call := by
  refine ⟨latest, ?_, completed⟩
  rw [begunAfter, scans] at *
  obtain ⟨count, positive⟩ := Nat.exists_eq_add_of_lt before
  rw [show (latest :: earlier).length - call.before = count + 1 by omega,
    List.take_succ_cons]
  exact List.mem_cons_self

end Scans

/-! ## The turns of the loop -/

section Turns

variable {rescans next : Rescans Deps} {queue : ScanQueue Deps}

theorem Kept.finish (kept : rescans.Kept)
    (promised : queue.completion < rescans.promises)
    (idle : ∀ scan ∈ rescans.scans, scan.state ≠ .running)
    {completion : Completion}
    (resolved : completion = .resolved → ∀ call ∈ rescans.calls,
      call.completion = queue.completion → rescans.Covered call) :
    (rescans.finish queue completion).Sound := by
  refine ⟨⟨?_, kept.made, ?_⟩, fun _ => idle, ?_⟩
  · intro number high
    have other : number ≠ queue.completion := by
      have bound : rescans.promises ≤ number := high
      omega
    exact (Function.update_of_ne other _ _).trans (kept.fresh number high)
  · intro call member settled
    by_cases same : call.completion = queue.completion
    · apply resolved _ call member same
      have updated : (rescans.finish queue completion).completions
          call.completion = completion := by
        rw [same]
        exact Function.update_self _ _ _
      rw [← updated]
      exact settled
    · have unchanged : (rescans.finish queue completion).completions
          call.completion = rescans.completions call.completion :=
        Function.update_of_ne same _ _
      rw [unchanged] at settled
      exact kept.resolved call member settled
  · intro other found
    cases found

theorem Kept.loop (kept : rescans.Kept)
    (promised : queue.completion < rescans.promises)
    (pending : rescans.completions queue.completion = .pending)
    (idle : ∀ scan ∈ rescans.scans, scan.state ≠ .running)
    (covered : queue.dirty = false → ∀ call ∈ rescans.calls,
      call.completion = queue.completion → rescans.Covered call) :
    (rescans.loop queue).Sound := by
  unfold Rescans.loop
  split
  · refine ⟨⟨kept.fresh, ?_, ?_⟩, ?_, ?_⟩
    · intro call member
      obtain ⟨promise, before⟩ := kept.made call member
      exact ⟨promise, Nat.le_succ_of_le before⟩
    · intro call member settled
      exact covered_cons (kept.resolved call member settled)
    · intro none
      cases none
    · intro running found
      cases found
      constructor
      · exact promised
      · exact pending
      · exact ⟨.scanning, _, _, rfl, rfl, rfl, idle⟩
      · intro _ call member _
        exact Nat.lt_succ_of_le (kept.made call member).2
      · intro dirty
        cases dirty
  · next clean =>
    rw [Bool.not_eq_true] at clean
    exact kept.finish promised idle fun _ => covered clean

/-- The first call of a queue. -/
theorem Sound.rescanCharts_new (sound : rescans.Sound)
    (none : rescans.queue = none) (deps : Deps) :
    (rescans.rescanCharts deps).Sound ∧
      (rescans.rescanCharts deps).calls =
        ⟨rescans.promises, rescans.scans.length⟩ :: rescans.calls ∧
      (rescans.rescanCharts deps).scans.length =
        rescans.scans.length + 1 := by
  have idle := sound.idle none
  refine ⟨?_, ?_, ?_⟩
  · simp only [rescanCharts, none, Option.getD_none, Option.isNone_none,
      if_true]
    apply Kept.loop
    · refine ⟨?_, ?_, ?_⟩
      · intro number high
        exact sound.fresh number (Nat.le_of_succ_le high)
      · intro call member
        rcases List.mem_cons.mp member with rfl | old
        · exact ⟨Nat.lt_succ_self _, Nat.le_refl _⟩
        · obtain ⟨promise, before⟩ := sound.made call old
          exact ⟨Nat.lt_succ_of_lt promise, before⟩
      · intro call member settled
        rcases List.mem_cons.mp member with rfl | old
        · have pending := sound.fresh rescans.promises (Nat.le_refl _)
          have resolved : rescans.completions rescans.promises = .resolved :=
            settled
          rw [pending] at resolved
          cases resolved
        · exact sound.resolved call old settled
    · exact Nat.lt_succ_self _
    · exact sound.fresh _ (Nat.le_refl _)
    · exact idle
    · intro dirty
      cases dirty
  · simp [rescanCharts, none, Rescans.loop]
  · simp [rescanCharts, none, Rescans.loop]

/-- A call while the loop runs. -/
theorem Sound.rescanCharts_running (sound : rescans.Sound)
    (found : rescans.queue = some queue) (deps : Deps) :
    (rescans.rescanCharts deps).Sound ∧
      (rescans.rescanCharts deps).calls =
        ⟨queue.completion, rescans.scans.length⟩ :: rescans.calls ∧
      (rescans.rescanCharts deps).scans = rescans.scans ∧
      (rescans.rescanCharts deps).owes = true := by
  have runs := sound.runs queue found
  obtain ⟨loop, latest, earlier, running, scans, awaits, ended⟩ := runs.awaits
  have unfolded : rescans.rescanCharts deps = { rescans with
      queue := some { queue with
        deps := deps
        dirty := true }
      calls := ⟨queue.completion, rescans.scans.length⟩ :: rescans.calls } := by
    simp [rescanCharts, found, running]
  rw [unfolded]
  refine ⟨⟨⟨sound.fresh, ?_, ?_⟩, ?_, ?_⟩, rfl, rfl, rfl⟩
  · intro call member
    rcases List.mem_cons.mp member with rfl | old
    · exact ⟨runs.promised, Nat.le_refl _⟩
    · exact sound.made call old
  · intro call member settled
    rcases List.mem_cons.mp member with rfl | old
    · have resolved : rescans.completions queue.completion = .resolved :=
        settled
      rw [runs.pending] at resolved
      cases resolved
    · exact sound.resolved call old settled
  · intro none
    cases none
  · intro other same
    cases same
    constructor
    · exact runs.promised
    · exact runs.pending
    · exact ⟨loop, latest, earlier, running, scans, awaits, ended⟩
    · intro dirty
      cases dirty
    · intro _
      exact ⟨_, List.mem_cons_self, rfl⟩

theorem Sound.settle (sound : rescans.Sound) {completed : Bool}
    (stepped : rescans.settle completed = some next) :
    next.Sound ∧ next.calls = rescans.calls ∧
      next.scans.length = rescans.scans.length ∧ next.owes = rescans.owes := by
  unfold Rescans.settle at stepped
  split at stepped
  · next queue scan earlier found scans =>
    split at stepped
    · next scanning =>
      cases stepped
      have runs := sound.runs queue found
      obtain ⟨loop, latest, others, running, listed, awaits, ended⟩ :=
        runs.awaits
      rw [scanning] at running
      rw [scans] at listed
      cases running
      cases listed
      refine ⟨⟨⟨sound.fresh, ?_, ?_⟩, ?_, ?_⟩, rfl, ?_, ?_⟩
      · intro call member
        have made := sound.made call member
        rw [scans] at made
        exact made
      · intro call member settled
        apply covered_settle awaits
        rw [← scans]
        exact sound.resolved call member settled
      · intro none
        cases none
      · intro other same
        cases same
        constructor
        · exact runs.promised
        · exact runs.pending
        · exact ⟨.settled completed, _, _, rfl, rfl, rfl, ended⟩
        · intro clean call member same
          have before := runs.clean clean call member same
          rw [scans] at before
          exact before
        · intro dirty
          obtain ⟨call, member, before⟩ := runs.marked dirty
          rw [scans] at before
          exact ⟨call, member, before⟩
      · rw [scans]
        rfl
      · rw [owes, owes, found]
        rfl
    · contradiction
  · contradiction

/-- The cases of a turn after a scan. -/
theorem Sound.resume (sound : rescans.Sound)
    (stepped : rescans.resume = some next) :
    next.Sound ∧ next.calls = rescans.calls ∧ ∃ queue,
      rescans.queue = some queue ∧
        ((queue.dirty = true ∧ queue.running = some (.settled true) ∧
            next.scans.length = rescans.scans.length + 1) ∨
          (queue.dirty = false ∧ next.scans = rescans.scans) ∨
          (queue.dirty = true ∧ queue.running = some (.settled false) ∧
            next.scans = rescans.scans ∧ next.queue = none)) := by
  obtain ⟨queue, found, stepped⟩ := Option.bind_eq_some_iff.mp stepped
  have runs := sound.runs queue found
  obtain ⟨loop, latest, earlier, running, scans, awaits, ended⟩ := runs.awaits
  rw [running] at stepped
  cases loop with
  | scanning => contradiction
  | settled completed =>
      have idle : ∀ scan ∈ rescans.scans, scan.state ≠ .running := by
        intro scan member
        rw [scans] at member
        rcases List.mem_cons.mp member with rfl | old
        · rw [awaits]
          cases completed <;> decide
        · exact ended scan old
      cases completed with
      | true =>
          cases stepped
          have kept : (rescans.loop queue).Sound := by
            apply sound.toKept.loop runs.promised runs.pending idle
            intro clean call member same
            exact covered_of_latest scans
              (runs.clean clean call member same) awaits
          refine ⟨kept, ?_, queue, found, ?_⟩
          · unfold Rescans.loop
            split <;> rfl
          · unfold Rescans.loop
            split
            · next dirty => exact .inl ⟨dirty, running, rfl⟩
            · next clean =>
              rw [Bool.not_eq_true] at clean
              exact .inr (.inl ⟨clean, rfl⟩)
      | false =>
          cases stepped
          refine ⟨?_, rfl, queue, found, ?_⟩
          · apply sound.toKept.finish runs.promised idle
            intro same
            cases same
          · cases dirty : queue.dirty with
            | true => exact .inr (.inr ⟨rfl, running, rfl, rfl⟩)
            | false => exact .inr (.inl ⟨rfl, rfl⟩)

theorem step_sound {label : RescanLabel Deps} (sound : rescans.Sound)
    (stepped : rescans.step label = some next) : next.Sound := by
  cases label with
  | rescan deps =>
      cases stepped
      cases found : rescans.queue with
      | none => exact (sound.rescanCharts_new found deps).1
      | some queue => exact (sound.rescanCharts_running found deps).1
  | settle completed => exact (sound.settle stepped).1
  | resume => exact (sound.resume stepped).1

/-- A step keeps every call followed exactly if it spares the owed scan. -/
theorem followed_iff {label : RescanLabel Deps} (sound : rescans.Sound)
    (followed : rescans.Followed)
    (stepped : rescans.step label = some next) :
    next.Followed ↔ rescans.Spares label := by
  cases label with
  | rescan deps =>
      cases stepped
      refine iff_of_true ?_ trivial
      cases found : rescans.queue with
      | none =>
          obtain ⟨_, calls, scans⟩ := sound.rescanCharts_new found deps
          intro call member
          rw [calls] at member
          rw [scans]
          rcases List.mem_cons.mp member with rfl | old
          · exact .inl (Nat.lt_succ_self _)
          · exact .inl (Nat.lt_succ_of_le (sound.made call old).2)
      | some queue =>
          obtain ⟨_, _, _, owed⟩ := sound.rescanCharts_running found deps
          exact fun _ _ => .inr owed
  | settle completed =>
      obtain ⟨_, calls, scans, owes⟩ := sound.settle stepped
      refine iff_of_true ?_ trivial
      intro call member
      rw [calls] at member
      rw [scans, owes]
      exact followed call member
  | resume =>
      obtain ⟨_, calls, queue, found, cases⟩ := sound.resume stepped
      rcases cases with ⟨_, running, scans⟩ | ⟨clean, scans⟩ |
        ⟨dirty, running, scans, none⟩
      · refine iff_of_true ?_ ?_
        · intro call member
          rw [calls] at member
          rw [scans]
          exact .inl (Nat.lt_succ_of_le (sound.made call member).2)
        · change rescans.loses = false
          simp [loses, found, running]
      · refine iff_of_true ?_ ?_
        · intro call member
          rw [calls] at member
          rw [scans]
          refine (followed call member).imp_right fun owed => ?_
          rw [owes, found, Option.any_some, clean] at owed
          exact absurd owed Bool.false_ne_true
        · change rescans.loses = false
          simp [loses, found, clean]
      · refine iff_of_false ?_ ?_
        · intro kept
          obtain ⟨call, member, before⟩ := (sound.runs queue found).marked dirty
          rw [← calls] at member
          rcases kept call member with begun | owed
          · rw [scans, before] at begun
            exact Nat.lt_irrefl _ begun
          · rw [owes, none, Option.any_none] at owed
            exact absurd owed Bool.false_ne_true
        · change ¬rescans.loses = false
          simp [loses, found, dirty, running]

theorem Sound.served (sound : rescans.Sound) (followed : rescans.Followed) :
    rescans.Served := by
  refine ⟨?_, sound.resolved, followed⟩
  have none_running : ∀ scans : List (ChartScan Deps),
      (∀ scan ∈ scans, scan.state ≠ .running) →
        (scans.filter fun scan => decide (scan.state = .running)) = [] := by
    intro scans idle
    apply List.filter_eq_nil_iff.mpr
    intro scan member
    simp [idle scan member]
  cases found : rescans.queue with
  | none =>
      rw [none_running _ (sound.idle found)]
      exact Nat.zero_le 1
  | some queue =>
      obtain ⟨_, latest, earlier, _, scans, _, ended⟩ :=
        (sound.runs queue found).awaits
      rw [scans, List.filter_cons, none_running earlier ended]
      split
      · exact Nat.le_refl 1
      · exact Nat.zero_le 1

end Turns

/-! ## Runs -/

section Runs

variable {start finish : Rescans Deps} {labels : List (RescanLabel Deps)}

theorem initial_sound : (initial : Rescans Deps).Sound := by
  refine ⟨⟨fun _ _ => rfl, ?_, ?_⟩, ?_, ?_⟩
  · intro call member
    exact absurd member List.not_mem_nil
  · intro call member
    exact absurd member List.not_mem_nil
  · intro _ scan member
    exact absurd member List.not_mem_nil
  · intro queue found
    cases found

theorem step_calls {label : RescanLabel Deps} (sound : start.Sound)
    (stepped : start.step label = some finish) :
    (∀ call ∈ start.calls, call ∈ finish.calls) ∧
      start.scans.length ≤ finish.scans.length := by
  cases label with
  | rescan deps =>
      cases stepped
      cases found : start.queue with
      | none =>
          obtain ⟨_, calls, scans⟩ := sound.rescanCharts_new found deps
          rw [calls, scans]
          exact ⟨fun _ => List.mem_cons_of_mem _, Nat.le_succ _⟩
      | some queue =>
          obtain ⟨_, calls, scans, _⟩ := sound.rescanCharts_running found deps
          rw [calls, scans]
          exact ⟨fun _ => List.mem_cons_of_mem _, Nat.le_refl _⟩
  | settle completed =>
      obtain ⟨_, calls, scans, _⟩ := sound.settle stepped
      rw [calls, scans]
      exact ⟨fun _ => id, Nat.le_refl _⟩
  | resume =>
      obtain ⟨_, calls, _, _, cases⟩ := sound.resume stepped
      rw [calls]
      refine ⟨fun _ => id, ?_⟩
      rcases cases with ⟨_, _, scans⟩ | ⟨_, scans⟩ | ⟨_, _, scans, _⟩
      · rw [scans]
        exact Nat.le_succ _
      · exact Nat.le_of_eq (congrArg List.length scans.symm)
      · exact Nat.le_of_eq (congrArg List.length scans.symm)

theorem run_scans (sound : start.Sound)
    (run : (machine Deps).exec start labels = some finish) :
    start.scans.length ≤ finish.scans.length := by
  induction labels generalizing start with
  | nil =>
      obtain rfl : start = finish := by simpa using run
      exact Nat.le_refl _
  | cons label rest induction =>
      obtain ⟨next, stepped, later⟩ := Machine.exec_cons_eq_some.mp run
      exact Nat.le_trans (step_calls sound stepped).2
        (induction (step_sound sound stepped) later)

/-- Behind the next turn of the loop every call is followed. -/
theorem resume_follows {next : Rescans Deps} (sound : start.Sound)
    (followed : start.Followed) (spares : start.Spares .resume)
    (stepped : start.step .resume = some next) :
    ∀ call ∈ start.calls, call.before < next.scans.length := by
  obtain ⟨_, _, queue, found, cases⟩ := sound.resume stepped
  intro call member
  rcases cases with ⟨_, _, scans⟩ | ⟨clean, scans⟩ | ⟨dirty, running, _, _⟩
  · rw [scans]
    exact Nat.lt_succ_of_le (sound.made call member).2
  · rw [scans]
    refine (followed call member).resolve_right fun owed => ?_
    rw [owes, found, Option.any_some, clean] at owed
    exact absurd owed Bool.false_ne_true
  · have lost : start.loses = true := by
      simp [loses, found, dirty, running]
    exact absurd (lost.symm.trans spares) Bool.true_eq_false.mp

theorem run_follows (sound : start.Sound) (followed : start.Followed)
    (run : (machine Deps).exec start labels = some finish)
    (spares : (machine Deps).AllSteps Spares start labels)
    (turned : RescanLabel.resume ∈ labels) :
    ∀ call ∈ start.calls, call.before < finish.scans.length := by
  induction labels generalizing start with
  | nil => exact absurd turned List.not_mem_nil
  | cons label rest induction =>
      obtain ⟨next, stepped, later⟩ := Machine.exec_cons_eq_some.mp run
      have nextSound := step_sound sound stepped
      have nextFollowed := (followed_iff sound followed stepped).mpr spares.1
      intro call member
      rcases List.mem_cons.mp turned with rfl | remains
      · exact Nat.lt_of_lt_of_le
          (resume_follows sound followed spares.1 stepped call member)
          (run_scans nextSound later)
      · exact induction nextSound nextFollowed later
          (spares.2 next stepped) remains call
            ((step_calls sound stepped).1 call member)

/-- In a run, every moment serves the calls and every call is followed by a
scan before the loop's next turn is over, exactly if the loop never goes on
behind a scan which threw while another one is owed. -/
theorem rescans_served_iff
    (run : (machine Deps).exec initial labels = some finish) :
    (∀ earlier later rescans, labels = earlier ++ later →
      (machine Deps).exec initial earlier = some rescans →
        rescans.Served ∧ (RescanLabel.resume ∈ later →
          ∀ call ∈ rescans.calls, call.before < finish.scans.length)) ↔
      (machine Deps).AllSteps Spares initial labels := by
  have none_called : (initial : Rescans Deps).Followed := by
    intro call member
    exact absurd member List.not_mem_nil
  have always := Machine.always_iff_allSteps (motive := Followed)
    (fun _ _ _ sound stepped => step_sound sound stepped)
    (fun _ _ _ sound followed stepped => followed_iff sound followed stepped)
    run initial_sound none_called
  constructor
  · intro serves
    apply always.mp
    intro earlier later rescans split reached
    exact (serves earlier later rescans split reached).1.followed
  · intro spares earlier later rescans split reached
    have sound := Machine.exec_preserves (motive := Sound)
      (fun _ _ _ sound stepped => step_sound sound stepped) reached
      initial_sound
    have followed := always.mpr spares earlier later rescans split reached
    refine ⟨sound.served followed, fun turned => ?_⟩
    rw [split] at run spares
    obtain ⟨middle, same, rest⟩ := Machine.exec_append_eq_some.mp run
    cases reached.symm.trans same
    exact run_follows sound followed rest
      ((Machine.allSteps_append.mp spares).2 rescans reached) turned

end Runs

/-- Two calls, of which the second comes during the scan of the first. -/
theorem rescans_served_of_two :
    ∃ finish : Rescans Unit, (machine Unit).exec initial
        [.rescan (), .rescan (), .settle true, .resume, .settle false,
          .resume] = some finish ∧ finish.Served := by
  obtain ⟨finish, run, _⟩ := Option.map_eq_some_iff.mp
    (show ((machine Unit).exec initial
        [.rescan (), .rescan (), .settle true, .resume, .settle false,
          .resume]).map (fun finish : Rescans Unit => finish.scans.length) =
        some 2 by decide +kernel)
  refine ⟨finish, run, ?_⟩
  apply ((rescans_served_iff run).mpr ?_ _ [] finish (List.append_nil _).symm
    run).1
  decide +kernel

/-- A call during a scan which throws: its promise is rejected, no loop runs,
and no scan has begun after it. -/
theorem call_lost_behind_throw :
    ∃ finish : Rescans Unit, (machine Unit).exec initial
        [.rescan (), .rescan (), .settle false, .resume] = some finish ∧
      finish.queue = none ∧ ∃ call ∈ finish.calls,
        call.before = finish.scans.length := by
  obtain ⟨finish, run, lost⟩ := Option.map_eq_some_iff.mp
    (show ((machine Unit).exec initial
        [.rescan (), .rescan (), .settle false, .resume]).map
      (fun finish : Rescans Unit => (finish.queue, finish.scans.length,
        finish.calls)) = some (none, 1, [⟨0, 1⟩, ⟨0, 0⟩]) by decide +kernel)
  simp only [Prod.mk.injEq] at lost
  refine ⟨finish, run, lost.1, ⟨0, 1⟩, ?_, lost.2.1.symm⟩
  rw [lost.2.2]
  exact List.mem_cons_self

end Rescans

end ChartLocker.Plugin
