import ChartLocker.Plugin.Transitions

/-!
# Launches do not overlap

Every operation which has not settled is awaited by the activity which issued
it or is joined in the pending transition, directly or through a late cleanup.
An activity launches only while nothing else is awaited and the slot is empty.
-/

namespace ChartLocker.Plugin

open Library

/-! ## The ledger of operations -/

theorem found_in_extended {Entry : Type} {entries : List Entry}
    {last entry : Entry} {index : Nat}
    (found : (entries ++ [last])[index]? = some entry) :
    entries[index]? = some entry ∨
      index = entries.length ∧ entry = last := by
  obtain ⟨inside, rfl⟩ := List.getElem?_eq_some_iff.mp found
  by_cases earlier : index < entries.length
  · left
    simp [List.getElem_append_left earlier, earlier]
  · right
    have position : index = entries.length := by
      simp only [List.length_append, List.length_singleton] at inside
      omega
    subst position
    simp

namespace Ledger

variable (ledger : Ledger)

def Pending (index : Nat) : Prop :=
  ∃ kind, ledger.operations[index]? = some ⟨kind, none⟩

def Launches (index : Nat) : Prop :=
  ∃ operation, ledger.operations[index]? = some operation ∧
    operation.kind.launches = true

/-- The pending transition joins the promise. -/
def Joins (transition : Transition) : Prop :=
  ∃ transitions, ledger.pendingManagerTransition = some transitions ∧
    transition ∈ transitions

/-- A late cleanup of the launch has not ended. -/
def Late (launch : Nat) : Prop :=
  ∃ (index : Nat) (phase : CleanupPhase),
    ledger.cleanups[index]? = some ⟨launch, phase⟩ ∧
    phase ≠ .done

/-- The pending transition cannot be cleared before the operation settles. -/
def Tracks (index : Nat) : Prop :=
  ledger.Joins (.operation index) ∨
    ∃ key cleanup, ledger.cleanups[key]? = some cleanup ∧
      ledger.Joins (.cleanup key) ∧
      (cleanup = ⟨index, .awaiting⟩ ∨ cleanup.phase = .stopping index)

/-- Where the operations stand while an activity awaits one of them, or
none. -/
structure Accounted (current : Option Nat) : Prop where
  covered : ∀ index, ledger.Pending index →
    current = some index ∨ ledger.Tracks index
  scheduled : ∀ key cleanup, ledger.cleanups[key]? = some cleanup →
    cleanup.phase ≠ .done → ledger.Joins (.cleanup key)
  newest : ∀ launch later, current = some launch ∨ ledger.Late launch →
    launch < later → ¬ ledger.Launches later
  apart : ∀ index later, ledger.Pending index → index < later →
    ¬ ledger.Launches later

variable {ledger}

theorem Pending.unsettled {index : Nat} (pending : ledger.Pending index) :
    ledger.settlement index = none := by
  obtain ⟨kind, found⟩ := pending
  simp [settlement, found]

@[simp] theorem issue_cleanups (kind : OperationKind) :
    (ledger.issue kind).cleanups = ledger.cleanups :=
  rfl

theorem pending_of_issue {kind : OperationKind} {index : Nat}
    (pending : (ledger.issue kind).Pending index) :
    ledger.Pending index ∨ index = ledger.next := by
  obtain ⟨other, found⟩ := pending
  rcases found_in_extended found with earlier | ⟨last, _⟩
  · exact .inl ⟨other, earlier⟩
  · exact .inr last

theorem launches_of_issue {kind : OperationKind} {index : Nat}
    (launches : (ledger.issue kind).Launches index) :
    ledger.Launches index ∨
      index = ledger.next ∧ kind.launches = true := by
  obtain ⟨operation, found, creates⟩ := launches
  rcases found_in_extended found with earlier | ⟨last, rfl⟩
  · exact .inl ⟨operation, earlier, creates⟩
  · exact .inr ⟨last, creates⟩

theorem Launches.lt {index : Nat} (launches : ledger.Launches index) :
    index < ledger.next := by
  obtain ⟨_, found, _⟩ := launches
  exact (List.getElem?_eq_some_iff.mp found).1

theorem track_joins {added transition : Transition} :
    (ledger.trackManagerTransition added).Joins transition ↔
      ledger.Joins transition ∨ transition = added := by
  cases slot : ledger.pendingManagerTransition <;>
    simp [Joins, trackManagerTransition, slot]

theorem cleanup_of_set {index : Nat} {phase : CleanupPhase} {key : Nat}
    {cleanup : Cleanup}
    (found : (ledger.setCleanup index phase).cleanups[key]? = some cleanup) :
    ∃ earlier, ledger.cleanups[key]? = some earlier ∧
      cleanup.launch = earlier.launch ∧
      cleanup.phase = if index = key then phase else earlier.phase := by
  simp only [setCleanup, List.getElem?_modify, Option.map_eq_map,
    Option.map_eq_some_iff] at found
  obtain ⟨earlier, stored, rfl⟩ := found
  refine ⟨earlier, stored, ?_⟩
  split
  · exact ⟨rfl, rfl⟩
  · exact ⟨rfl, rfl⟩

namespace Accounted

variable {current : Option Nat}

theorem empty : Accounted ⟨[], [], none⟩ none := by
  constructor
  · rintro index ⟨_, impossible⟩
    simp at impossible
  · intro key cleanup impossible
    simp at impossible
  · rintro launch later _ _ ⟨_, impossible, _⟩
    simp at impossible
  · rintro index later _ _ ⟨_, impossible, _⟩
    simp at impossible

/-- While the slot is empty, the late cleanups have ended. -/
theorem not_late (accounted : ledger.Accounted current)
    (free : ledger.pendingManagerTransition = none) (launch : Nat) :
    ¬ ledger.Late launch := by
  rintro ⟨key, phase, stored, unfinished⟩
  obtain ⟨transitions, slot, _⟩ := accounted.scheduled key _ stored unfinished
  rw [free] at slot
  cases slot

/-- While nobody awaits an operation and the slot is empty, everything has
settled. -/
theorem not_pending (accounted : ledger.Accounted none)
    (free : ledger.pendingManagerTransition = none) (index : Nat) :
    ¬ ledger.Pending index := by
  have unjoined : ∀ transition, ¬ ledger.Joins transition := by
    rintro transition ⟨transitions, slot, _⟩
    rw [free] at slot
    cases slot
  intro pending
  rcases accounted.covered index pending with awaited | tracked
  · cases awaited
  · rcases tracked with direct | ⟨key, _, _, joined, _⟩
    · exact unjoined _ direct
    · exact unjoined _ joined

/-- An activity issues a launch and awaits it. -/
theorem launch (accounted : ledger.Accounted none)
    (free : ledger.pendingManagerTransition = none) (kind : OperationKind) :
    (ledger.issue kind).Accounted (some ledger.next) := by
  constructor
  · intro index pending
    rcases pending_of_issue pending with earlier | rfl
    · exact absurd earlier (accounted.not_pending free index)
    · exact .inl rfl
  · exact accounted.scheduled
  · intro launch later responsible behind launches
    rcases responsible with awaited | late
    · cases awaited
      have before := launches.lt
      simp only [next, issue, List.length_append,
        List.length_singleton] at before behind
      omega
    · exact accounted.not_late free launch late
  · intro index later pending behind launches
    rcases pending_of_issue pending with earlier | rfl
    · exact accounted.not_pending free index earlier
    · have before := launches.lt
      simp only [next, issue, List.length_append,
        List.length_singleton] at before behind
      omega

theorem apart_issue (accounted : ledger.Accounted current) (index later : Nat)
    (pending : (ledger.issue .stop).Pending index) (behind : index < later) :
    ¬ (ledger.issue .stop).Launches later := by
  intro launches
  rcases launches_of_issue launches with earlier | ⟨_, creates⟩
  · rcases pending_of_issue pending with before | rfl
    · exact accounted.apart index later before behind earlier
    · exact absurd earlier.lt (Nat.lt_asymm behind)
  · cases creates

/-- An activity issues a stop and awaits it. -/
theorem stop (accounted : ledger.Accounted none) :
    (ledger.issue .stop).Accounted (some ledger.next) := by
  constructor
  · intro index pending
    rcases pending_of_issue pending with earlier | rfl
    · rcases accounted.covered index earlier with awaited | tracked
      · cases awaited
      · exact .inr tracked
    · exact .inl rfl
  · exact accounted.scheduled
  · intro launch later responsible behind launches
    rcases launches_of_issue launches with earlier | ⟨_, creates⟩
    · rcases responsible with awaited | late
      · cases awaited
        exact absurd earlier.lt (Nat.lt_asymm behind)
      · exact accounted.newest launch later (.inr late) behind earlier
    · cases creates
  · exact accounted.apart_issue

/-- An activity has seen its operation settle. -/
theorem drop {index : Nat} (accounted : ledger.Accounted (some index))
    (settled : (ledger.settlement index).isSome) : ledger.Accounted none where
  covered other pending := by
    rcases accounted.covered other pending with awaited | tracked
    · cases awaited
      rw [pending.unsettled] at settled
      cases settled
    · exact .inr tracked
  scheduled := accounted.scheduled
  newest launch later responsible := by
    rcases responsible with impossible | late
    · cases impossible
    · exact accounted.newest launch later (.inr late)
  apart := accounted.apart

/-- Joining one more promise loses none. -/
theorem join (accounted : ledger.Accounted current)
    (transition : Transition) :
    (ledger.trackManagerTransition transition).Accounted current := by
  constructor
  · intro index pending
    rcases accounted.covered index pending with awaited | tracked
    · exact .inl awaited
    · right
      rcases tracked with direct | ⟨key, cleanup, stored, joined, stage⟩
      · exact .inl (track_joins.mpr (.inl direct))
      · exact .inr ⟨key, cleanup, stored, track_joins.mpr (.inl joined),
          stage⟩
  · intro key cleanup stored unfinished
    exact track_joins.mpr
      (.inl (accounted.scheduled key cleanup stored unfinished))
  · exact accounted.newest
  · exact accounted.apart

/-- An activity leaves its operation to the pending transition. -/
theorem release {index : Nat} (accounted : ledger.Accounted (some index))
    (tracked : ledger.Tracks index) : ledger.Accounted none where
  covered other pending := by
    rcases accounted.covered other pending with awaited | earlier
    · cases awaited
      exact .inr tracked
    · exact .inr earlier
  scheduled := accounted.scheduled
  newest launch later responsible := by
    rcases responsible with impossible | late
    · cases impossible
    · exact accounted.newest launch later (.inr late)
  apart := accounted.apart

theorem track {index : Nat} (accounted : ledger.Accounted (some index)) :
    (ledger.trackManagerTransition (.operation index)).Accounted none :=
  (accounted.join _).release (.inl (track_joins.mpr (.inr rfl)))

/-- A late cleanup of the launch which an activity awaits begins. -/
theorem extended {index : Nat} (accounted : ledger.Accounted (some index))
    (joined : ledger.Joins (.cleanup ledger.cleanups.length)) :
    { ledger with
      cleanups := ledger.cleanups ++ [⟨index, .awaiting⟩]
      : Ledger }.Accounted (some index) := by
  constructor
  · intro other pending
    rcases accounted.covered other pending with awaited | tracked
    · exact .inl awaited
    · right
      rcases tracked with direct | ⟨key, cleanup, stored, held, stage⟩
      · exact .inl direct
      · have inside := (List.getElem?_eq_some_iff.mp stored).1
        exact .inr ⟨key, cleanup,
          (List.getElem?_append_left inside).trans stored, held, stage⟩
  · intro key cleanup found unfinished
    rcases found_in_extended found with earlier | ⟨rfl, _⟩
    · exact accounted.scheduled key cleanup earlier unfinished
    · exact joined
  · intro launch later responsible
    rcases responsible with awaited | ⟨key, phase, found, unfinished⟩
    · exact accounted.newest launch later (.inl awaited)
    · rcases found_in_extended found with earlier | ⟨_, last⟩
      · exact accounted.newest launch later
          (.inr ⟨key, phase, earlier, unfinished⟩)
      · cases last
        exact accounted.newest index later (.inl rfl)
  · exact accounted.apart

/-- An activity leaves its launch to a late cleanup. -/
theorem schedule {index : Nat} (accounted : ledger.Accounted (some index)) :
    (ledger.scheduleLateEnsureCleanup index).Accounted none := by
  have joined : (ledger.trackManagerTransition
      (.cleanup ledger.cleanups.length)).Joins
        (.cleanup ledger.cleanups.length) := track_joins.mpr (.inr rfl)
  have begun := (accounted.join (.cleanup ledger.cleanups.length)).extended
    joined
  refine begun.release (.inr ⟨ledger.cleanups.length, ⟨index, .awaiting⟩, ?_,
    joined, .inl rfl⟩)
  exact List.getElem?_concat_length

/-- A stop which the pending transition is going to join is issued. -/
theorem issueTracked (accounted : ledger.Accounted current)
    (tracked : ledger.Tracks ledger.next) :
    (ledger.issue .stop).Accounted current := by
  constructor
  · intro index pending
    rcases pending_of_issue pending with earlier | rfl
    · exact accounted.covered index earlier
    · exact .inr tracked
  · exact accounted.scheduled
  · intro launch later responsible behind launches
    rcases launches_of_issue launches with earlier | ⟨_, creates⟩
    · exact accounted.newest launch later responsible behind earlier
    · cases creates
  · exact accounted.apart_issue

theorem settle (accounted : ledger.Accounted current) (index : Nat)
    (settlement : Settlement) :
    (ledger.settle index settlement).Accounted current := by
  have operations : ∀ (other : Nat) (operation : Operation),
      (ledger.settle index settlement).operations[other]? =
        some operation →
      ∃ earlier : Operation, ledger.operations[other]? = some earlier ∧
        operation.kind = earlier.kind ∧
        (operation.settlement = none → earlier.settlement = none) := by
    intro other operation found
    simp only [Ledger.settle, List.getElem?_modify, Option.map_eq_map,
      Option.map_eq_some_iff] at found
    obtain ⟨earlier, stored, rfl⟩ := found
    refine ⟨earlier, stored, ?_⟩
    split
    · exact ⟨rfl, fun impossible => by cases impossible⟩
    · exact ⟨rfl, id⟩
  constructor
  · rintro other ⟨kind, found⟩
    obtain ⟨⟨_, _⟩, stored, rfl, unsettled⟩ := operations other _ found
    cases unsettled rfl
    exact accounted.covered other ⟨_, stored⟩
  · exact accounted.scheduled
  · rintro launch later responsible behind ⟨operation, found, creates⟩
    obtain ⟨earlier, stored, same, _⟩ := operations later _ found
    exact accounted.newest launch later responsible behind
      ⟨earlier, stored, same ▸ creates⟩
  · rintro other later ⟨kind, found⟩ behind ⟨operation, issued, creates⟩
    obtain ⟨⟨_, _⟩, pending, rfl, unsettled⟩ := operations other _ found
    cases unsettled rfl
    obtain ⟨earlier, stored, same, _⟩ := operations later _ issued
    exact accounted.apart other later ⟨_, pending⟩ behind
      ⟨earlier, stored, same ▸ creates⟩

/-- What the slot joins has settled when it is cleared. -/
theorem clear (accounted : ledger.Accounted current) {next : Ledger}
    (cleared : ledger.clear = some next) : next.Accounted current := by
  unfold Ledger.clear at cleared
  split at cleared
  · next transitions slot =>
    split at cleared
    · next all =>
      cases cleared
      have settled : ∀ transition, ledger.Joins transition →
          ledger.settled transition = true := by
        rintro transition ⟨joined, held, member⟩
        obtain rfl := Option.some.inj (slot.symm.trans held)
        exact List.all_eq_true.mp all transition member
      have ended : ∀ key cleanup, ledger.cleanups[key]? = some cleanup →
          ledger.Joins (.cleanup key) → cleanup.phase = .done := by
        intro key cleanup stored joined
        simpa [Ledger.settled, stored] using settled _ joined
      constructor
      · intro index pending
        rcases accounted.covered index pending with awaited | tracked
        · exact .inl awaited
        · exfalso
          rcases tracked with direct | ⟨key, cleanup, stored, joined, stage⟩
          · have answer := settled _ direct
            have unsettled := pending.unsettled
            simp only [Ledger.settled, Option.isSome_iff_exists] at answer
            obtain ⟨settlement, found⟩ := answer
            rw [show ledger.settlement index = none from unsettled] at found
            cases found
          · have finished := ended key cleanup stored joined
            rcases stage with rfl | stopping
            · cases finished
            · rw [stopping] at finished
              cases finished
      · intro key cleanup stored unfinished
        exact absurd (ended key cleanup stored
          (accounted.scheduled key cleanup stored unfinished)) unfinished
      · exact accounted.newest
      · exact accounted.apart
    · contradiction
  · contradiction

/-- A late cleanup moves on, once the operation which it awaits has
settled. -/
theorem advance (accounted : ledger.Accounted current) {index : Nat}
    {cleanup : Cleanup} (stored : ledger.cleanups[index]? = some cleanup)
    (unfinished : cleanup.phase ≠ .done) (phase : CleanupPhase)
    (passed : ∀ operation, ledger.Pending operation →
      ¬ (cleanup = ⟨operation, .awaiting⟩ ∨
        cleanup.phase = .stopping operation)) :
    (ledger.setCleanup index phase).Accounted current := by
  constructor
  · intro other pending
    rcases accounted.covered other pending with awaited | tracked
    · exact .inl awaited
    · right
      rcases tracked with direct | ⟨key, held, found, joined, stage⟩
      · exact .inl direct
      · refine .inr ⟨key, held, ?_, joined, stage⟩
        have apart : index ≠ key := by
          rintro rfl
          cases stored.symm.trans found
          exact passed other pending stage
        simpa [setCleanup, apart] using found
  · intro key held found open'
    obtain ⟨earlier, before, _, same⟩ := cleanup_of_set found
    by_cases own : index = key
    · subst own
      exact accounted.scheduled index cleanup stored unfinished
    · rw [if_neg own] at same
      exact accounted.scheduled key earlier before (same ▸ open')
  · rintro launch later (awaited | ⟨key, stage, found, open'⟩)
    · exact accounted.newest launch later (.inl awaited)
    · obtain ⟨⟨_, before⟩, held, rfl, same⟩ := cleanup_of_set found
      apply accounted.newest _ later
      right
      by_cases own : index = key
      · subst own
        cases stored.symm.trans held
        exact ⟨index, _, held, unfinished⟩
      · rw [if_neg own] at same
        exact ⟨key, before, held, fun ended => open' (same.trans ended)⟩
  · exact accounted.apart

theorem cleanup (accounted : ledger.Accounted current) {index : Nat}
    {issued : Bool} {next : Ledger}
    (moved : ledger.cleanup index issued = some next) :
    next.Accounted current := by
  unfold Ledger.cleanup at moved
  split at moved
  · next launch stored =>
    have passed : ledger.settlement launch ≠ none →
        ∀ operation, ledger.Pending operation →
          ¬ ((⟨launch, .awaiting⟩ : Cleanup) = ⟨operation, .awaiting⟩ ∨
            CleanupPhase.awaiting = .stopping operation) := by
      rintro settled operation pending (same | impossible)
      · cases same
        exact settled pending.unsettled
      · cases impossible
    have unfinished : CleanupPhase.awaiting ≠ .done := by decide
    split at moved
    · next completed =>
      have advanced := fun phase => accounted.advance stored unfinished phase
        (passed (by simp [completed]))
      split at moved
      · cases moved
        have joined := accounted.scheduled index _ stored unfinished
        refine (advanced (.stopping ledger.next)).issueTracked ?_
        refine .inr ⟨index, ⟨launch, .stopping ledger.next⟩, ?_, joined,
          .inr rfl⟩
        simp [setCleanup, stored]
      · cases moved
        exact advanced .done
    · next rejected =>
      cases moved
      exact accounted.advance stored unfinished .done
        (passed (by simp [rejected]))
    · contradiction
  · next launch operation stored =>
    split at moved
    · next settled =>
      cases moved
      apply accounted.advance stored (by simp)
      rintro other pending (impossible | same)
      · cases impossible
      · cases same
        rw [pending.unsettled] at settled
        cases settled
    · contradiction
  · contradiction

end Accounted

theorem cleanup_pendingManagerTransition {index : Nat} {issued : Bool}
    {next : Ledger} (moved : ledger.cleanup index issued = some next) :
    next.pendingManagerTransition = ledger.pendingManagerTransition := by
  unfold Ledger.cleanup at moved
  repeat' split at moved
  all_goals first
    | contradiction
    | (cases moved; rfl)

end Ledger

/-! ## The activities -/

/-- The operation which an activity awaits. -/
def Lifecycle.operation : Lifecycle → Option Nat
  | .starting (.ensuring operation) => some operation
  | .starting (.stoppingVolume operation) => some operation
  | _ => none

def MonitorPhase.operation : MonitorPhase → Option Nat
  | .recreating operation => some operation
  | .stoppingVolume operation => some operation
  | _ => none

def PluginState.monitorOperation (state : PluginState) : Option Nat :=
  state.monitor.bind fun monitor => monitor.phase.operation

def PluginState.current (state : PluginState) : Option Nat :=
  state.lifecycle.operation.or state.monitorOperation

structure Guarded (state : PluginState) : Prop where
  accounted : state.ledger.Accounted state.current
  running : ∀ phase, state.lifecycle = .starting phase →
    state.pluginRunning = true
  /-- There is no monitor while a start may launch. -/
  monitored : state.monitor ≠ none →
    (state.lifecycle = .idle ∨ state.lifecycle = .starting .finishing) ∧
        state.pluginRunning = true ∨
      ∃ restarts, state.lifecycle = .stopping .stoppingMonitor restarts
  unobstructed : state.lifecycle = .starting .adopting →
    state.ledger.pendingManagerTransition = none

namespace Guarded

variable {state next : PluginState}

theorem newInstance : Guarded newInstance where
  accounted := .empty
  running := by
    intro phase impossible
    cases impossible
  monitored impossible := absurd rfl impossible
  unobstructed := by
    intro impossible
    cases impossible

theorem enterStop (accounted : state.ledger.Accounted state.monitorOperation)
    (restarts : Bool) : Guarded (state.enterStop restarts) where
  accounted := by
    have same : (state.enterStop restarts).current =
        state.monitorOperation := by
      simp only [PluginState.current, PluginState.enterStop,
        Lifecycle.operation, PluginState.monitorOperation, Option.none_or]
      cases state.monitor <;> rfl
    rw [same]
    exact accounted
  running := by
    intro phase impossible
    cases impossible
  monitored _ := .inr ⟨restarts, rfl⟩
  unobstructed := by
    intro impossible
    cases impossible

theorem enterStart (accounted : state.ledger.Accounted none)
    (unmonitored : state.monitor = none) : Guarded state.enterStart where
  accounted := by
    simpa [PluginState.current, PluginState.enterStart, Lifecycle.operation,
      PluginState.monitorOperation, unmonitored] using accounted
  running _ _ := rfl
  monitored found := absurd unmonitored found
  unobstructed := by
    intro impossible
    cases impossible

theorem leaveStop (accounted : state.ledger.Accounted none)
    (unmonitored : state.monitor = none) (restarts : Bool) :
    Guarded (state.leaveStop restarts) := by
  cases restarts with
  | true => exact enterStart accounted unmonitored
  | false =>
    constructor
    · simpa [PluginState.current, PluginState.leaveStop, Lifecycle.operation,
        PluginState.monitorOperation, unmonitored] using accounted
    · intro phase impossible
      cases impossible
    · exact fun found => absurd unmonitored found
    · intro impossible
      cases impossible

/-- A start returns or fails after whatever it awaited has been accounted
for. -/
theorem leaveStart (accounted : state.ledger.Accounted state.monitorOperation)
    (running : state.pluginRunning = true) (returned : Bool) :
    Guarded (state.leaveStart returned) := by
  cases returned with
  | true =>
    constructor
    · exact accounted
    · intro phase impossible
      cases impossible
    · exact fun _ => .inl ⟨.inl rfl, running⟩
    · intro impossible
      cases impossible
  | false => exact enterStop accounted false

/-- A start which has no monitor yet goes on. -/
theorem atPhase {phase : StartPhase}
    (accounted : state.ledger.Accounted (Lifecycle.starting phase).operation)
    (unmonitored : state.monitor = none)
    (running : state.pluginRunning = true)
    (free : phase = .adopting →
      state.ledger.pendingManagerTransition = none) :
    Guarded (state.atPhase phase) where
  accounted := by
    simpa [PluginState.current, PluginState.atPhase,
      PluginState.monitorOperation, unmonitored] using accounted
  running _ _ := running
  monitored found := absurd unmonitored found
  unobstructed same := by
    cases same
    exact free rfl

/-- What holds while a start has no monitor yet. -/
theorem starting (guarded : Guarded state) {phase : StartPhase}
    (lifecycle : state.lifecycle = .starting phase)
    (early : phase ≠ .finishing) :
    state.monitor = none ∧ state.pluginRunning = true ∧
      state.ledger.Accounted (Lifecycle.starting phase).operation := by
  have unmonitored : state.monitor = none := by
    by_contra found
    rcases guarded.monitored found with ⟨idle | finishing, _⟩ |
      ⟨restarts, stopping⟩
    · rw [lifecycle] at idle
      cases idle
    · rw [lifecycle] at finishing
      cases finishing
      exact early rfl
    · rw [lifecycle] at stopping
      cases stopping
  refine ⟨unmonitored, guarded.running phase lifecycle, ?_⟩
  simpa [PluginState.current, lifecycle, PluginState.monitorOperation,
    unmonitored] using guarded.accounted

theorem leaveEarly (accounted : state.ledger.Accounted none)
    (unmonitored : state.monitor = none)
    (running : state.pluginRunning = true) (returned : Bool) :
    Guarded (state.leaveStart returned) := by
  refine leaveStart ?_ running returned
  simpa [PluginState.monitorOperation, unmonitored] using accounted

/-- A start finds the pending transition `null`, or goes elsewhere. -/
theorem atUnobstructed {other : StartPhase}
    (accounted : state.ledger.Accounted none)
    (unmonitored : state.monitor = none)
    (running : state.pluginRunning = true)
    (idle : (Lifecycle.starting other).operation = none)
    (apart : other ≠ .adopting) :
    Guarded (state.atPhase
      (if state.unobstructed then .adopting else other)) := by
  split
  · next free =>
    refine atPhase accounted unmonitored running fun _ => ?_
    simpa [PluginState.unobstructed] using free
  · refine atPhase (idle ▸ accounted) unmonitored running fun same => ?_
    exact absurd same apart

/-- A new monitor has not checked anything. -/
theorem watched (accounted : state.ledger.Accounted none)
    (unmonitored : state.monitor = none)
    (running : state.pluginRunning = true) (monitored : Bool) :
    Guarded ((state.watch monitored).atPhase .finishing) := by
  cases monitored with
  | true =>
    constructor
    · exact accounted
    · exact fun _ _ => running
    · exact fun _ => .inl ⟨.inr rfl, running⟩
    · intro impossible
      cases impossible
  | false => exact atPhase accounted unmonitored running (by simp)

theorem startFrom (guarded : Guarded state) {phase : StartPhase}
    (lifecycle : state.lifecycle = .starting phase) {event : StartEvent}
    (started : state.startFrom phase event = some next) : Guarded next := by
  have running := guarded.running phase lifecycle
  by_cases late : phase = .finishing
  · -- The start has a monitor already, which may be at work.
    subst late
    unfold PluginState.startFrom at started
    split at started <;> try contradiction
    cases started
    refine leaveStart ?_ running _
    simpa [PluginState.current, lifecycle, Lifecycle.operation] using
      guarded.accounted
  · obtain ⟨unmonitored, _, accounted⟩ := guarded.starting lifecycle late
    have elsewhere : ∀ {other : StartPhase}, other ≠ .adopting →
        other = .adopting → state.ledger.pendingManagerTransition = none :=
      fun apart same => absurd same apart
    unfold PluginState.startFrom at started
    split at started
    · cases started
      exact leaveEarly accounted unmonitored running false
    · cases started
      exact leaveEarly accounted unmonitored running _
    · cases started
      exact atUnobstructed accounted unmonitored running rfl (by decide)
    · cases started
      exact atUnobstructed accounted unmonitored running rfl (by decide)
    · split at started
      · cases started
        exact leaveEarly accounted unmonitored running _
      · contradiction
    · cases started
      exact atPhase accounted unmonitored running (elsewhere (by decide))
    · split at started
      · cases started
        apply leaveEarly
        · exact accounted
        · exact unmonitored
        · exact running
      · contradiction
    · have free := guarded.unobstructed lifecycle
      split at started
      · cases started
        exact atPhase (accounted.launch free _) unmonitored running
          (by simp)
      · cases started
        exact atPhase accounted unmonitored running
          (elsewhere (by decide))
    · split at started
      · cases started
        apply leaveEarly
        · exact accounted.schedule
        · exact unmonitored
        · exact running
      · contradiction
    · cases started
      exact atPhase accounted.schedule unmonitored running (by simp)
    · split at started
      · next completed =>
        cases started
        exact atPhase (accounted.drop (by simp [completed])) unmonitored
          running (by simp)
      · contradiction
    · split at started
      · next rejected =>
        have settled := accounted.drop (by simp [rejected])
        split at started
        · cases started
          exact atPhase settled.stop unmonitored running (by simp)
        · cases started
          exact atPhase settled unmonitored running (by simp)
      · contradiction
    · split at started
      · next settled =>
        cases started
        exact atPhase (accounted.drop settled) unmonitored running (by simp)
      · contradiction
    · cases started
      exact atPhase accounted.track unmonitored running (by simp)
    · split at started
      · cases started
        exact leaveEarly accounted unmonitored running _
      · contradiction
    · cases started
      exact watched accounted unmonitored running _
    · exact absurd rfl late
    · contradiction

theorem start (guarded : Guarded state) {event : StartEvent}
    (started : state.start event = some next) : Guarded next := by
  unfold PluginState.start at started
  split at started
  · next phase lifecycle => exact guarded.startFrom lifecycle started
  · contradiction

/-- While there is a monitor, no other activity awaits an operation. -/
theorem checking (guarded : Guarded state) {monitor : Monitor}
    (found : state.monitor = some monitor) :
    state.lifecycle.operation = none ∧
      state.lifecycle ≠ .starting .adopting ∧
      state.ledger.Accounted monitor.phase.operation := by
  have idle : state.lifecycle.operation = none ∧
      state.lifecycle ≠ .starting .adopting := by
    rcases guarded.monitored (by simp [found]) with ⟨idle | finishing, _⟩ |
      ⟨restarts, stopping⟩
    · simp [idle, Lifecycle.operation]
    · simp [finishing, Lifecycle.operation]
    · simp [stopping, Lifecycle.operation]
  refine ⟨idle.1, idle.2, ?_⟩
  simpa [PluginState.current, idle.1, PluginState.monitorOperation,
    found] using guarded.accounted

/-- A check of the monitor goes on over a new ledger. -/
theorem setMonitor (guarded : Guarded state) {monitor : Monitor}
    (found : state.monitor = some monitor) {ledger : Ledger}
    {phase : MonitorPhase} (accounted : ledger.Accounted phase.operation) :
    Guarded ((state.withLedger ledger).setMonitor monitor phase) := by
  obtain ⟨idle, apart, _⟩ := guarded.checking found
  constructor
  · simpa [PluginState.current, PluginState.setMonitor,
      PluginState.withLedger, PluginState.monitorOperation, idle] using
      accounted
  · exact guarded.running
  · intro _
    exact guarded.monitored (by simp [found])
  · exact fun same => absurd same apart

theorem recreate (guarded : Guarded state) {monitor : Monitor}
    (found : state.monitor = some monitor)
    (accounted : state.ledger.Accounted none)
    (free : state.unobstructed = true) (issued : Bool) :
    Guarded (state.recreate monitor issued) := by
  cases issued with
  | true =>
    have empty : state.ledger.pendingManagerTransition = none := by
      simpa [PluginState.unobstructed] using free
    exact guarded.setMonitor found (accounted.launch empty .recreate)
  | false => exact guarded.setMonitor found accounted

theorem checkFrom (guarded : Guarded state) {monitor : Monitor}
    (found : state.monitor = some monitor) {event : MonitorEvent}
    (checked : state.checkFrom monitor event = some next) :
    Guarded next := by
  obtain ⟨disposed, phase⟩ := monitor
  obtain ⟨_, _, accounted⟩ := guarded.checking found
  unfold PluginState.checkFrom at checked
  dsimp only at checked
  split at checked
  · split at checked
    · contradiction
    · cases checked
      exact guarded.setMonitor found accounted
  · cases checked
    exact guarded.setMonitor found accounted
  · split at checked
    · contradiction
    · split at checked
      · next free =>
        cases checked
        exact guarded.recreate found accounted free _
      · cases checked
        exact guarded.setMonitor found accounted
  · split at checked
    · next free =>
      cases checked
      exact guarded.recreate found accounted free _
    · cases checked
      exact guarded.setMonitor found accounted
  · cases checked
    exact guarded.setMonitor found accounted.schedule
  · split at checked
    · next completed =>
      cases checked
      exact guarded.setMonitor found (accounted.drop (by simp [completed]))
    · contradiction
  · split at checked
    · next rejected =>
      have settled := accounted.drop (by simp [rejected])
      split at checked
      · cases checked
        exact guarded.setMonitor found settled.stop
      · cases checked
        exact guarded.setMonitor found settled
    · contradiction
  · split at checked
    · next settled =>
      cases checked
      exact guarded.setMonitor found (accounted.drop settled)
    · contradiction
  · cases checked
    exact guarded.setMonitor found accounted.track
  · cases checked
    exact guarded.setMonitor found accounted
  · contradiction

theorem check (guarded : Guarded state) {event : MonitorEvent}
    (checked : state.check event = some next) : Guarded next := by
  unfold PluginState.check at checked
  split at checked
  · next monitor found => exact guarded.checkFrom found checked
  · contradiction

/-- After the monitor has stopped, only `doStop` is at work. -/
theorem stopping (guarded : Guarded state) {phase : StopPhase}
    {restarts : Bool} (lifecycle : state.lifecycle = .stopping phase restarts)
    (later : phase ≠ .stoppingMonitor) :
    state.monitor = none ∧ state.ledger.Accounted none := by
  have unmonitored : state.monitor = none := by
    by_contra found
    rcases guarded.monitored found with ⟨idle | finishing, _⟩ |
      ⟨restarts, stopping⟩
    · rw [lifecycle] at idle
      cases idle
    · rw [lifecycle] at finishing
      cases finishing
    · rw [lifecycle] at stopping
      cases stopping
      exact later rfl
  refine ⟨unmonitored, ?_⟩
  simpa [PluginState.current, lifecycle, Lifecycle.operation,
    PluginState.monitorOperation, unmonitored] using guarded.accounted

theorem stopFrom (guarded : Guarded state) {phase : StopPhase}
    {restarts : Bool} (lifecycle : state.lifecycle = .stopping phase restarts)
    {event : StopEvent}
    (stopped : state.stopFrom phase restarts event = some next) :
    Guarded next := by
  unfold PluginState.stopFrom at stopped
  split at stopped
  · split at stopped
    · next quiet =>
      cases stopped
      have idle : state.monitorOperation = none := by
        cases found : state.monitor with
        | none => simp [PluginState.monitorOperation, found]
        | some monitor =>
          have phase : monitor.phase = .idle := by
            simpa [found] using quiet
          simp [PluginState.monitorOperation, found, phase,
            MonitorPhase.operation]
      have same : state.current = none := by
        simp [PluginState.current, lifecycle, Lifecycle.operation, idle]
      constructor
      · have accounted := guarded.accounted
        rw [same] at accounted
        exact accounted
      · intro phase impossible
        cases impossible
      · exact fun found => absurd rfl found
      · intro impossible
        cases impossible
    · contradiction
  · obtain ⟨unmonitored, accounted⟩ := guarded.stopping lifecycle (by decide)
    split at stopped
    · cases stopped
      have tracked := accounted.stop.track
      constructor
      · simpa [PluginState.current, Lifecycle.operation,
          PluginState.monitorOperation, unmonitored] using tracked
      · intro phase impossible
        cases impossible
      · exact fun found => absurd unmonitored found
      · intro impossible
        cases impossible
    · cases stopped
      exact leaveStop accounted unmonitored restarts
  · obtain ⟨unmonitored, accounted⟩ := guarded.stopping lifecycle (by decide)
    cases stopped
    exact leaveStop accounted unmonitored restarts
  · contradiction

theorem stop (guarded : Guarded state) {event : StopEvent}
    (stopped : state.stop event = some next) : Guarded next := by
  unfold PluginState.stop at stopped
  split at stopped
  · next phase restarts lifecycle => exact guarded.stopFrom lifecycle stopped
  · contradiction

theorem take (guarded : Guarded state) (taken : state.take = some next) :
    Guarded next := by
  have accounted : state.lifecycle = .idle →
      state.ledger.Accounted state.monitorOperation := by
    intro idle
    simpa [PluginState.current, idle, Lifecycle.operation] using
      guarded.accounted
  unfold PluginState.take at taken
  split at taken
  · next valid rest idle _ =>
    dsimp only at taken
    split at taken
    · split at taken
      · cases taken
        apply enterStop
        exact accounted idle
      · next resting =>
        cases taken
        have unmonitored : state.monitor = none := by
          by_contra found
          rcases guarded.monitored found with ⟨_, running⟩ |
            ⟨restarts, stopping⟩
          · exact resting running
          · rw [idle] at stopping
            cases stopping
        refine enterStart ?_ unmonitored
        simpa [PluginState.monitorOperation, unmonitored] using
          accounted idle
    · cases taken
      apply enterStop
      exact accounted idle
  · next rest idle _ =>
    cases taken
    apply enterStop
    exact accounted idle
  · contradiction

/-- A step of the manager or of a late cleanup. -/
theorem withLedger (guarded : Guarded state) {ledger : Ledger}
    (accounted : ledger.Accounted state.current)
    (slot : state.ledger.pendingManagerTransition = none →
      ledger.pendingManagerTransition = none) :
    Guarded (state.withLedger ledger) where
  accounted := accounted
  running := guarded.running
  monitored := guarded.monitored
  unobstructed adopting := slot (guarded.unobstructed adopting)

theorem step (guarded : Guarded state) {label : PluginLabel}
    (stepped : state.step label = some next) : Guarded next := by
  cases label with
  | call call =>
      cases stepped
      exact ⟨guarded.accounted, guarded.running, guarded.monitored,
        guarded.unobstructed⟩
  | take => exact guarded.take stepped
  | start event => exact guarded.start stepped
  | monitor event => exact guarded.check stepped
  | stop event => exact guarded.stop stepped
  | cleanup index issued =>
      obtain ⟨ledger, moved, rfl⟩ := Option.map_eq_some_iff.mp stepped
      apply guarded.withLedger (guarded.accounted.cleanup moved)
      rw [Ledger.cleanup_pendingManagerTransition moved]
      exact id
  | settle index settlement =>
      simp only [PluginState.step] at stepped
      split at stepped
      · cases stepped
        exact guarded.withLedger (guarded.accounted.settle _ _) id
      · contradiction
  | clear =>
      obtain ⟨ledger, cleared, rfl⟩ := Option.map_eq_some_iff.mp stepped
      apply guarded.withLedger (guarded.accounted.clear cleared)
      intro free
      simp [Ledger.clear, free] at cleared

end Guarded

theorem guarded_of_reachable {state : PluginState}
    (reached : pluginMachine.Reachable state) : Guarded state := by
  apply reached.invariant
  · rintro _ rfl
    exact .newInstance
  · intro state label next guarded stepped
    exact guarded.step stepped

/-- A launch is issued only when every earlier operation has settled, and no
container is launched between a launch which outlived its caller and the end
of its late cleanup. -/
theorem launches_never_overlap {state : PluginState}
    (reached : pluginMachine.Reachable state) :
    (∀ label next kind, state.step label = some next →
      next.ledger.operations = state.ledger.operations ++ [⟨kind, none⟩] →
      kind.launches = true →
      ∀ operation ∈ state.ledger.operations,
        operation.settlement ≠ none) ∧
    ∀ (key : Nat) (cleanup : Cleanup),
      state.ledger.cleanups[key]? = some cleanup → cleanup.phase ≠ .done →
      ∀ (later : Nat) (operation : Operation), cleanup.launch < later →
        state.ledger.operations[later]? = some operation →
        operation.kind.launches = false := by
  constructor
  · intro label next kind stepped issued launches operation member unsettled
    have guarded := guarded_of_reachable (reached.step stepped)
    obtain ⟨index, inside, rfl⟩ := List.getElem_of_mem member
    apply guarded.accounted.apart index state.ledger.operations.length
    · refine ⟨state.ledger.operations[index].kind, ?_⟩
      rw [issued, List.getElem?_append_left inside,
        List.getElem?_eq_getElem inside, ← unsettled]
    · exact inside
    · refine ⟨⟨kind, none⟩, ?_, launches⟩
      rw [issued]
      exact List.getElem?_concat_length
  · intro key cleanup stored unfinished later operation behind found
    have guarded := guarded_of_reachable reached
    have none := guarded.accounted.newest cleanup.launch later
      (.inr ⟨key, cleanup.phase, stored, unfinished⟩) behind
    by_contra launches
    exact none ⟨operation, found, by simpa using launches⟩

/-- A stop aborts a start which has launched.  The next start finds the late
cleanup pending and does not launch.  The one after it launches. -/
def lateLaunch : List PluginLabel :=
  [.call (.start true), .take, .start .ready, .start (.launch false true),
    .call .stop, .start (.aborted false true), .take, .stop .monitorStopped,
    .stop (.tornDown false), .call (.start true), .take, .start .ready,
    .start .waited, .start (.left true), .settle 0 .completed,
    .cleanup 0 true, .settle 1 .completed, .cleanup 0 true, .clear,
    .call (.start true), .take, .stop .monitorStopped,
    .stop (.tornDown false), .start .ready]

/-- The third start, about to launch. -/
def launchReady : PluginState where
  ledger :=
    { operations :=
        [⟨.ensureRunning, some .completed⟩, ⟨.stop, some .completed⟩]
      cleanups := [⟨0, .done⟩]
      pendingManagerTransition := none }
  calls := []
  lifecycle := .starting .adopting
  aborted := false
  pluginRunning := true
  tilecacheOwned := false
  monitor := none

theorem launches_never_overlap_lateLaunch :
    pluginMachine.exec newInstance lateLaunch = some launchReady ∧
      ∀ operation ∈ launchReady.ledger.operations,
        operation.settlement ≠ none := by
  have run : pluginMachine.exec newInstance lateLaunch =
      some launchReady := by decide +kernel
  have reached : pluginMachine.Reachable launchReady :=
    ⟨newInstance, lateLaunch, rfl, run⟩
  exact ⟨run, (launches_never_overlap reached).1
    (.start (.launch false true)) _ .ensureRunning rfl rfl rfl⟩

end ChartLocker.Plugin
