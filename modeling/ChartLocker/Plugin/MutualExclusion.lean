import Mathlib.Data.Bool.Basic
import ChartLocker.Library.Machine

/-!
# The mutual-exclusion watcher

`watchThirdPartyPmtilesEnabled` follows the enabled state of a third-party
plugin and has the caller apply it.  What `onChange` does is a parameter: it
may fail after it has changed the caller's provider.  The plugin's own
`onChange` is `syncCharts`.
-/

namespace ChartLocker.Plugin

open Library

/-! ## The watcher -/

/-- A call of `onChange` with its result, when there is one. -/
structure ChangeCall where
  target : Bool
  result : Option Bool
deriving DecidableEq, Repr

/-- The variables of the closure, the caller's provider and, newest first, the
calls of `onChange`. -/
structure MutualExclusionWatcher (Provider : Type) where
  observed : Bool
  applied : Bool
  stopped : Bool
  applyTimer : Option Nat
  transition : Option Bool
  retryMs : Nat
  retryBaseMs : Nat
  provider : Provider
  calls : List ChangeCall
deriving DecidableEq, Repr

inductive WatcherLabel (Outcome : Type) where
  | check (current : Except String Bool)
  | timerFires
  | settles (outcome : Outcome)
  | stop

namespace MutualExclusionWatcher

variable {Provider Outcome : Type}

def scheduleApply (watcher : MutualExclusionWatcher Provider)
    (delayMs : Nat) : MutualExclusionWatcher Provider :=
  if watcher.stopped || watcher.transition.isSome ||
      watcher.observed == watcher.applied || watcher.applyTimer.isSome then
    watcher
  else { watcher with applyTimer := some delayMs }

/-- The watcher when it is created, with the options `applied` and
`retryBaseMs`. -/
def created (observed : Bool) (applied : Option Bool)
    (retryBaseMs : Option Nat) (provider : Provider) :
    MutualExclusionWatcher Provider :=
  scheduleApply
    { observed := observed
      applied := applied.getD observed
      stopped := false
      applyTimer := none
      transition := none
      retryMs := max 1 (retryBaseMs.getD 100)
      retryBaseMs := max 1 (retryBaseMs.getD 100)
      provider := provider
      calls := [] } 0

/-- `check`: an unreadable state is reported and changes nothing. -/
def check (watcher : MutualExclusionWatcher Provider) :
    Except String Bool → MutualExclusionWatcher Provider
  | .error _ => watcher
  | .ok current =>
      if watcher.stopped || current == watcher.observed then watcher
      else scheduleApply { watcher with observed := current } 0

/-- The callback of the timer, up to the call of `onChange`. -/
def timerFires (watcher : MutualExclusionWatcher Provider) :
    MutualExclusionWatcher Provider :=
  let fired := { watcher with applyTimer := none }
  if watcher.stopped || watcher.transition.isSome ||
      watcher.observed == watcher.applied then fired
  else
    { fired with
      transition := some watcher.observed
      calls := ⟨watcher.observed, none⟩ :: watcher.calls }

/-- The newest call has returned. -/
def answered (calls : List ChangeCall) (succeeded : Bool) : List ChangeCall :=
  match calls with
  | [] => []
  | call :: earlier => { call with result := some succeeded } :: earlier

/-- The `finally` of a transition. -/
def transitionEnds (watcher : MutualExclusionWatcher Provider)
    (succeeded : Bool) : MutualExclusionWatcher Provider :=
  let ended := { watcher with transition := none }
  if watcher.stopped || watcher.observed == watcher.applied then ended
  else if succeeded then ended.scheduleApply 0
  else
    { ended.scheduleApply watcher.retryMs with
      retryMs := min (watcher.retryMs * 2) 5000 }

/-- `onChange` settles. -/
def settles (onChange : Provider → Bool → Outcome → Provider × Bool)
    (watcher : MutualExclusionWatcher Provider) (target : Bool)
    (outcome : Outcome) : MutualExclusionWatcher Provider :=
  let done := onChange watcher.provider target outcome
  let returned := { watcher with
    provider := done.1
    calls := answered watcher.calls done.2 }
  if done.2 then
    transitionEnds { returned with
      applied := if watcher.stopped then watcher.applied else target
      retryMs := watcher.retryBaseMs } true
  else returned.transitionEnds false

def step (onChange : Provider → Bool → Outcome → Provider × Bool)
    (watcher : MutualExclusionWatcher Provider) :
    WatcherLabel Outcome → Option (MutualExclusionWatcher Provider)
  | .check current => some (watcher.check current)
  | .timerFires =>
      if watcher.applyTimer.isSome then some watcher.timerFires else none
  | .settles outcome =>
      match watcher.transition with
      | some target => some (watcher.settles onChange target outcome)
      | none => none
  | .stop =>
      if watcher.stopped then some watcher
      else some { watcher with stopped := true, applyTimer := none }

/-- No pending timer, no running transition, not stopped. -/
def quiescent (watcher : MutualExclusionWatcher Provider) : Bool :=
  watcher.applyTimer.isNone && watcher.transition.isNone && !watcher.stopped

/-- A quiescent watcher has made its last call for the observed state, or it
has made none and began in that state. -/
def Converged (initially : Bool) (watcher : MutualExclusionWatcher Provider) :
    Prop :=
  watcher.quiescent = true →
    match watcher.calls with
    | [] => initially = watcher.observed
    | call :: _ => call.target = watcher.observed

/-- No call is made before the one before it has returned. -/
def Serial (watcher : MutualExclusionWatcher Provider) : Prop :=
  ∀ call ∈ watcher.calls.tail, call.result ≠ none

/-- Whether the last call has failed. -/
def failed (watcher : MutualExclusionWatcher Provider) : Bool :=
  match watcher.calls with
  | [] => false
  | call :: _ => call.result == some false

/-- A failed call is not forgotten: unless the watcher is stopped, the observed
state is not back at the applied one when the call fails or when its retry is
due. -/
def keepsTrying (onChange : Provider → Bool → Outcome → Provider × Bool)
    (watcher : MutualExclusionWatcher Provider)
    (label : WatcherLabel Outcome) : Bool :=
  watcher.stopped || watcher.observed != watcher.applied ||
    match label with
    | .timerFires => !watcher.failed
    | .settles outcome => watcher.transition.all fun target =>
        (onChange watcher.provider target outcome).2
    | _ => true

end MutualExclusionWatcher

def watcherMachine {Provider Outcome : Type}
    (onChange : Provider → Bool → Outcome → Provider × Bool) :
    Machine (MutualExclusionWatcher Provider) (WatcherLabel Outcome) where
  initial watcher := ∃ observed applied retryBaseMs provider,
    watcher = MutualExclusionWatcher.created observed applied retryBaseMs
      provider
  step := MutualExclusionWatcher.step onChange

/-! ## The invariant -/

namespace MutualExclusionWatcher

variable {Provider Outcome : Type}
  {onChange : Provider → Bool → Outcome → Provider × Bool}
  {watcher next : MutualExclusionWatcher Provider} {initially : Bool}

/-- How the applied state and the transition follow from the last call. -/
def Agrees (initially : Bool) (watcher : MutualExclusionWatcher Provider) :
    Prop :=
  match watcher.calls with
  | [] => watcher.applied = initially ∧ watcher.transition = none
  | ⟨target, none⟩ :: _ =>
      watcher.transition = some target ∧ target ≠ watcher.applied
  | ⟨target, some true⟩ :: _ =>
      watcher.transition = none ∧
        (watcher.stopped = false → watcher.applied = target)
  | ⟨target, some false⟩ :: _ =>
      watcher.transition = none ∧ target ≠ watcher.applied

structure Tracks (initially : Bool)
    (watcher : MutualExclusionWatcher Provider) : Prop where
  settled : watcher.quiescent = true → watcher.observed = watcher.applied
  agrees : watcher.Agrees initially
  serial : watcher.Serial
  untimed : watcher.transition ≠ none → watcher.applyTimer = none

theorem scheduleApply_eq (delayMs : Nat) :
    watcher.scheduleApply delayMs =
      { watcher with
        applyTimer := (watcher.scheduleApply delayMs).applyTimer } := by
  unfold scheduleApply
  split <;> rfl

/-- A watcher which has asked for a call is only left at rest when there is
nothing to apply. -/
theorem settled_scheduleApply {delayMs : Nat}
    (rests : (watcher.scheduleApply delayMs).quiescent = true) :
    watcher.observed = watcher.applied := by
  unfold scheduleApply at rests
  split at rests
  · next kept =>
    simp only [quiescent, Bool.and_eq_true, Option.isNone_iff_eq_none,
      Bool.not_eq_true'] at rests
    obtain ⟨⟨timer, transition⟩, runs⟩ := rests
    simpa [timer, transition, runs] using kept
  · simp [quiescent] at rests

theorem Tracks.scheduleApply {delayMs : Nat}
    (agrees : watcher.Agrees initially) (serial : watcher.Serial)
    (untimed : watcher.transition ≠ none → watcher.applyTimer = none) :
    (watcher.scheduleApply delayMs).Tracks initially where
  settled := by
    intro rests
    have same := settled_scheduleApply rests
    rw [scheduleApply_eq]
    exact same
  agrees := by
    rw [scheduleApply_eq]
    exact agrees
  serial := by
    rw [scheduleApply_eq]
    exact serial
  untimed := by
    intro runs
    rw [scheduleApply_eq] at runs
    unfold MutualExclusionWatcher.scheduleApply
    rw [if_pos (by simp [Option.isSome_iff_ne_none.mpr runs])]
    exact untimed runs

theorem tracks_created {observed : Bool} {applied : Option Bool}
    {retryBaseMs : Option Nat} {provider : Provider} :
    (created observed applied retryBaseMs provider).Tracks
      (applied.getD observed) :=
  Tracks.scheduleApply ⟨rfl, rfl⟩ nofun fun _ => rfl

/-- The head of the calls has returned when no transition is running. -/
theorem Tracks.returned (tracks : watcher.Tracks initially)
    (idle : watcher.transition = none) :
    ∀ call ∈ watcher.calls, call.result ≠ none := by
  have agrees := tracks.agrees
  have serial := tracks.serial
  unfold Agrees at agrees
  unfold Serial at serial
  split at agrees
  · next none => simp [none]
  · rw [idle] at agrees
    exact absurd agrees.1 nofun
  · next made =>
    rw [made] at serial ⊢
    exact List.forall_mem_cons.mpr ⟨nofun, serial⟩
  · next made =>
    rw [made] at serial ⊢
    exact List.forall_mem_cons.mpr ⟨nofun, serial⟩

theorem Tracks.check (tracks : watcher.Tracks initially)
    {current : Except String Bool} :
    (watcher.check current).Tracks initially := by
  cases current with
  | error message => exact tracks
  | ok current =>
      unfold MutualExclusionWatcher.check
      dsimp only
      split
      · exact tracks
      · exact Tracks.scheduleApply tracks.agrees tracks.serial
          tracks.untimed

theorem Tracks.timerFires (tracks : watcher.Tracks initially) :
    watcher.timerFires.Tracks initially := by
  unfold MutualExclusionWatcher.timerFires
  dsimp only
  split
  · next held =>
    refine ⟨fun rests => ?_, tracks.agrees, tracks.serial, fun _ => rfl⟩
    simp only [quiescent, Bool.and_eq_true, Option.isNone_iff_eq_none,
      Bool.not_eq_true'] at rests
    simpa [rests.1.2, rests.2] using held
  · next goes =>
    simp only [Bool.or_eq_true, beq_iff_eq, not_or, Bool.not_eq_true,
      Option.isSome_eq_false_iff, Option.isNone_iff_eq_none] at goes
    constructor
    · intro rests
      simp [quiescent] at rests
    · exact ⟨rfl, goes.2⟩
    · exact tracks.returned goes.1.2
    · exact fun _ => rfl

theorem Tracks.transitionEnds {succeeded : Bool}
    (agrees : Agrees initially { watcher with transition := none })
    (serial : watcher.Serial) :
    (watcher.transitionEnds succeeded).Tracks initially := by
  unfold MutualExclusionWatcher.transitionEnds
  dsimp only
  split
  · next held =>
    refine ⟨fun rests => ?_, agrees, serial, fun runs => absurd rfl runs⟩
    simp only [quiescent, Bool.and_eq_true, Bool.not_eq_true'] at rests
    simpa [rests.2] using held
  · split
    · exact Tracks.scheduleApply agrees serial fun runs => absurd rfl runs
    · have tracks : (MutualExclusionWatcher.scheduleApply
          { watcher with transition := none } watcher.retryMs).Tracks
            initially :=
        Tracks.scheduleApply agrees serial fun runs => absurd rfl runs
      exact ⟨tracks.settled, tracks.agrees, tracks.serial, tracks.untimed⟩

/-- The running call is the newest one, and for what is not applied. -/
theorem Tracks.running (tracks : watcher.Tracks initially) {target : Bool}
    (runs : watcher.transition = some target) :
    ∃ earlier, watcher.calls = ⟨target, none⟩ :: earlier ∧
      target ≠ watcher.applied := by
  have agrees := tracks.agrees
  unfold Agrees at agrees
  split at agrees
  · rw [runs] at agrees
    exact absurd agrees.2 nofun
  · next other earlier made =>
    rw [runs] at agrees
    obtain rfl : target = other := Option.some.inj agrees.1
    exact ⟨earlier, made, agrees.2⟩
  · rw [runs] at agrees
    exact absurd agrees.1 nofun
  · rw [runs] at agrees
    exact absurd agrees.1 nofun

theorem Tracks.settles (tracks : watcher.Tracks initially) {target : Bool}
    {outcome : Outcome} (runs : watcher.transition = some target) :
    (watcher.settles onChange target outcome).Tracks initially := by
  obtain ⟨earlier, made, differs⟩ := tracks.running runs
  have serial : ∀ call ∈ earlier, call.result ≠ none := by
    have serial := tracks.serial
    unfold Serial at serial
    rw [made] at serial
    exact serial
  unfold MutualExclusionWatcher.settles
  dsimp only
  rw [made]
  split
  · next succeeded =>
    rw [succeeded]
    apply Tracks.transitionEnds
    · refine ⟨rfl, fun runs => ?_⟩
      have runs : watcher.stopped = false := runs
      simp [runs]
    · exact serial
  · next failed =>
    rw [Bool.eq_false_of_not_eq_true failed]
    apply Tracks.transitionEnds
    · exact ⟨rfl, differs⟩
    · exact serial

theorem Tracks.step (tracks : watcher.Tracks initially)
    {label : WatcherLabel Outcome}
    (stepped : watcher.step onChange label = some next) :
    next.Tracks initially := by
  cases label with
  | check current => exact Option.some.inj stepped ▸ tracks.check
  | timerFires =>
      simp only [MutualExclusionWatcher.step] at stepped
      split at stepped
      · exact Option.some.inj stepped ▸ tracks.timerFires
      · contradiction
  | settles outcome =>
      simp only [MutualExclusionWatcher.step] at stepped
      split at stepped
      · next runs => exact Option.some.inj stepped ▸ tracks.settles runs
      · contradiction
  | stop =>
      simp only [MutualExclusionWatcher.step] at stepped
      split at stepped
      · exact Option.some.inj stepped ▸ tracks
      · obtain rfl := Option.some.inj stepped
        refine ⟨fun rests => ?_, ?_, tracks.serial, fun _ => rfl⟩
        · simp [quiescent] at rests
        · have agrees := tracks.agrees
          unfold Agrees at agrees ⊢
          dsimp only
          split at agrees
          · exact agrees
          · exact agrees
          · exact ⟨agrees.1, nofun⟩
          · exact agrees

/-- At rest, the last call was for the observed state unless it has failed. -/
theorem Tracks.converged_iff (tracks : watcher.Tracks initially) :
    watcher.Converged initially ↔
      (watcher.quiescent = true → watcher.failed = false) := by
  unfold Converged
  refine forall_congr' fun rests => ?_
  have settled := tracks.settled rests
  have agrees := tracks.agrees
  unfold Agrees at agrees
  unfold failed
  split at agrees
  · next made => simp [made, settled, agrees.1]
  · next made =>
    simp [quiescent, agrees.1] at rests
  · next made =>
    simp only [quiescent, Bool.and_eq_true, Bool.not_eq_true'] at rests
    simp [made, settled, agrees.2 rests.2]
  · next made =>
    simp only [made, settled]
    simpa using agrees.2

theorem failed_scheduleApply (delayMs : Nat) :
    (watcher.scheduleApply delayMs).failed = watcher.failed := by
  rw [scheduleApply_eq]
  rfl

/-- A flip of the observed state leaves no watcher at rest. -/
theorem Tracks.converged_check (tracks : watcher.Tracks initially)
    {current : Except String Bool}
    (converged : watcher.Converged initially) :
    (watcher.check current).Converged initially := by
  cases current with
  | error message => exact converged
  | ok current =>
      unfold MutualExclusionWatcher.check
      dsimp only
      split
      · exact converged
      · next flips =>
        intro rests
        have same : current = watcher.applied := settled_scheduleApply rests
        simp only [Bool.or_eq_true, beq_iff_eq, not_or,
          Bool.not_eq_true] at flips
        -- the watcher was at rest before, so that nothing was to apply
        rw [scheduleApply_eq] at rests
        simp only [quiescent, Bool.and_eq_true,
          Option.isNone_iff_eq_none] at rests
        unfold MutualExclusionWatcher.scheduleApply at rests
        split at rests
        · have before : watcher.quiescent = true := by
            simpa [quiescent] using rests
          exact absurd (same.trans (tracks.settled before).symm) flips.2
        · simp at rests

/-- A timer which fires in vain leaves a failed call behind. -/
theorem Tracks.converged_timerFires (tracks : watcher.Tracks initially) :
    watcher.timerFires.Converged initially ↔
      watcher.keepsTrying onChange (.timerFires : WatcherLabel Outcome) =
        true := by
  rw [tracks.timerFires.converged_iff]
  unfold keepsTrying MutualExclusionWatcher.timerFires
  dsimp only
  split
  · next held =>
    cases transition : watcher.transition with
    | some target =>
        have quiet : watcher.failed = false := by
          obtain ⟨earlier, made, _⟩ := tracks.running transition
          simp [failed, made]
        simp [quiescent, quiet]
    | none =>
        have same : watcher.stopped = true ∨
            watcher.observed = watcher.applied := by
          simpa [transition] using held
        rcases same with gone | same
        · simp [quiescent, gone]
        · have quiet : failed { watcher with applyTimer := none } =
            watcher.failed := rfl
          cases watcher.stopped <;> simp [quiescent, same, failed]
  · next goes =>
    simp only [Bool.or_eq_true, beq_iff_eq, not_or] at goes
    simp [quiescent, goes.2]

theorem calls_transitionEnds (succeeded : Bool) :
    (watcher.transitionEnds succeeded).calls = watcher.calls := by
  unfold transitionEnds
  dsimp only
  split
  · rfl
  · split <;> rw [scheduleApply_eq]

/-- A transition only ends at rest when there is nothing to apply. -/
theorem quiescent_transitionEnds (succeeded : Bool)
    (untimed : watcher.applyTimer = none) :
    (watcher.transitionEnds succeeded).quiescent =
      (!watcher.stopped && watcher.observed == watcher.applied) := by
  unfold transitionEnds
  dsimp only
  split
  · next held =>
    have rest : quiescent { watcher with transition := none } =
        !watcher.stopped := by
      simp [quiescent, untimed]
    rw [rest]
    cases gone : watcher.stopped
    · have same : watcher.observed = watcher.applied := by
        simpa [gone] using held
      simp [same]
    · rfl
  · next goes =>
    simp only [Bool.or_eq_true, beq_iff_eq, not_or, Bool.not_eq_true] at goes
    have moves : ∀ delayMs, (scheduleApply
        { watcher with transition := none } delayMs).quiescent = false := by
      intro delayMs
      apply Bool.eq_false_of_not_eq_true
      intro rests
      have same := settled_scheduleApply rests
      exact goes.2 same
    have differs : (watcher.observed == watcher.applied) = false :=
      beq_eq_false_iff_ne.mpr goes.2
    rw [differs, Bool.and_false]
    split
    · exact moves 0
    · exact moves watcher.retryMs

/-- A call which fails while there is nothing to apply is left behind. -/
theorem Tracks.converged_settles (tracks : watcher.Tracks initially)
    {target : Bool} {outcome : Outcome}
    (runs : watcher.transition = some target) :
    (watcher.settles onChange target outcome).Converged initially ↔
      watcher.keepsTrying onChange (.settles outcome) = true := by
  rw [(tracks.settles runs).converged_iff]
  obtain ⟨earlier, made, _⟩ := tracks.running runs
  have untimed : watcher.applyTimer = none :=
    tracks.untimed (by rw [runs]; nofun)
  unfold keepsTrying MutualExclusionWatcher.settles failed
  dsimp only
  rw [made]
  split
  · next succeeded =>
    rw [calls_transitionEnds]
    simp [answered, succeeded, runs]
  · next failed =>
    rw [calls_transitionEnds, quiescent_transitionEnds]
    on_goal 2 => exact untimed
    cases watcher.stopped <;> simp [answered, failed, runs]

theorem Tracks.converged_step (tracks : watcher.Tracks initially)
    (converged : watcher.Converged initially) {label : WatcherLabel Outcome}
    (stepped : watcher.step onChange label = some next) :
    next.Converged initially ↔
      watcher.keepsTrying onChange label = true := by
  cases label with
  | check current =>
      obtain rfl := Option.some.inj stepped
      simp [keepsTrying, tracks.converged_check converged]
  | timerFires =>
      simp only [MutualExclusionWatcher.step] at stepped
      split at stepped
      · exact Option.some.inj stepped ▸ tracks.converged_timerFires
      · contradiction
  | settles outcome =>
      simp only [MutualExclusionWatcher.step] at stepped
      split at stepped
      · next runs =>
        exact Option.some.inj stepped ▸ tracks.converged_settles runs
      · contradiction
  | stop =>
      simp only [MutualExclusionWatcher.step] at stepped
      split at stepped
      · obtain rfl := Option.some.inj stepped
        simp [keepsTrying, converged]
      · obtain rfl := Option.some.inj stepped
        simp [keepsTrying, Converged, quiescent]

end MutualExclusionWatcher

/-! ## Runs -/

/-- The calls of `onChange` never overlap, and every state at rest has made its
last call for the observed state exactly if no failed call is forgotten. -/
theorem watcher_converges_iff {Provider Outcome : Type}
    {onChange : Provider → Bool → Outcome → Provider × Bool}
    {start finish : MutualExclusionWatcher Provider}
    {labels : List (WatcherLabel Outcome)}
    (begins : (watcherMachine onChange).initial start)
    (run : (watcherMachine onChange).exec start labels = some finish) :
    finish.Serial ∧
      ((∀ earlier later watcher, labels = earlier ++ later →
        (watcherMachine onChange).exec start earlier = some watcher →
          watcher.Converged start.applied) ↔
        (watcherMachine onChange).AllSteps (fun watcher label =>
          watcher.keepsTrying onChange label = true) start labels) := by
  obtain ⟨observed, applied, retryBaseMs, provider, rfl⟩ := begins
  have tracks := @MutualExclusionWatcher.tracks_created Provider observed
    applied retryBaseMs provider
  have initially : (MutualExclusionWatcher.created observed applied
      retryBaseMs provider).applied = applied.getD observed := by
    unfold MutualExclusionWatcher.created
    rw [MutualExclusionWatcher.scheduleApply_eq]
  have kept : ∀ watcher label next,
      watcher.Tracks (applied.getD observed) →
        (watcherMachine onChange).step watcher label = some next →
          next.Tracks (applied.getD observed) :=
    fun watcher label next holds stepped => holds.step stepped
  rw [initially]
  constructor
  · exact (Machine.exec_preserves kept run tracks).serial
  · apply Machine.always_iff_allSteps kept _ run tracks
    · apply tracks.converged_iff.mpr
      intro _
      unfold MutualExclusionWatcher.created
      rw [MutualExclusionWatcher.failed_scheduleApply]
      rfl
    · exact fun watcher label next holds converged stepped =>
        holds.converged_step converged stepped

/-! ## The plugin's own provider -/

inductive PmtilesProviderState where
  | serving
  | conflict
  | unavailable
deriving DecidableEq, Repr

/-- The state of the provider which goes with a state of the third-party
plugin. -/
def providerMode (thirdPartyEnabled : Bool) : PmtilesProviderState :=
  if thirdPartyEnabled then .conflict else .serving

/-- Whether a discovery is running, and what the provider does. -/
structure ChartProvider where
  discovery : Bool
  pmtilesState : PmtilesProviderState
deriving DecidableEq, Repr

/-- The calls of `syncCharts` which can throw. -/
inductive SyncStep where
  | stopDiscovery
  | registerChartProvider
  | loadOverrides
  | startDiscovery
deriving DecidableEq, Repr

/-- `syncCharts`: the provider afterwards, and whether the call succeeds. -/
def syncCharts (provider : ChartProvider) (thirdPartyEnabled : Bool)
    (throwing : Option SyncStep) : ChartProvider × Bool :=
  if thirdPartyEnabled then
    -- both `finally` blocks run when the discovery does not stop
    (⟨false, .conflict⟩,
      !(provider.discovery && throwing == some .stopDiscovery))
  else if throwing == some .registerChartProvider then (provider, false)
  else if provider.discovery then
    ({ provider with pmtilesState := .serving }, true)
  else if throwing == some .loadOverrides ||
      throwing == some .startDiscovery then (provider, false)
  else (⟨true, .serving⟩, true)

/-- A call which succeeds leaves the provider in the right mode. -/
theorem pmtilesState_of_syncCharts {provider : ChartProvider}
    {enabled : Bool} {throwing : Option SyncStep}
    (succeeded : (syncCharts provider enabled throwing).2 = true) :
    (syncCharts provider enabled throwing).1.pmtilesState =
      providerMode enabled := by
  cases enabled with
  | true => rfl
  | false =>
      unfold syncCharts at succeeded ⊢
      simp only [Bool.false_eq_true, if_false] at succeeded ⊢
      split at succeeded
      · contradiction
      · split at succeeded
        · rw [if_neg ‹_›, if_pos ‹_›]
          rfl
        · split at succeeded
          · contradiction
          · rw [if_neg ‹_›, if_neg ‹_›, if_neg ‹_›]
            rfl

namespace MutualExclusionWatcher

/-- Unless a call is running or has failed, the provider is in the mode of the
applied state. -/
def Reflects (watcher : MutualExclusionWatcher ChartProvider) : Prop :=
  watcher.stopped = false → watcher.transition = none →
    watcher.failed = false →
      watcher.provider.pmtilesState = providerMode watcher.applied

section Provider

variable {watcher next : MutualExclusionWatcher ChartProvider}
  {initially : Bool}

theorem Reflects.scheduleApply {delayMs : Nat}
    (reflects : watcher.Reflects) :
    (watcher.scheduleApply delayMs).Reflects := by
  rw [scheduleApply_eq]
  exact reflects

theorem reflects_transitionEnds {succeeded : Bool}
    (reflects : Reflects { watcher with transition := none }) :
    (watcher.transitionEnds succeeded).Reflects := by
  unfold transitionEnds
  dsimp only
  split
  · exact reflects
  · split
    · exact reflects.scheduleApply
    · exact Reflects.scheduleApply reflects

theorem reflects_settles {target : Bool} {throwing : Option SyncStep}
    (tracks : watcher.Tracks initially)
    (runs : watcher.transition = some target) :
    (watcher.settles syncCharts target throwing).Reflects := by
  obtain ⟨earlier, made, _⟩ := tracks.running runs
  unfold settles
  dsimp only
  rw [made]
  split
  · next succeeded =>
    apply reflects_transitionEnds
    intro lives _ _
    have lives : watcher.stopped = false := lives
    simpa [lives] using pmtilesState_of_syncCharts succeeded
  · next refused =>
    apply reflects_transitionEnds
    intro _ _ quiet
    simp [failed, answered, refused] at quiet

theorem Reflects.step (tracks : watcher.Tracks initially)
    (reflects : watcher.Reflects) {label : WatcherLabel (Option SyncStep)}
    (stepped : watcher.step syncCharts label = some next) :
    next.Reflects := by
  cases label with
  | check current =>
      obtain rfl := Option.some.inj stepped
      cases current with
      | error message => exact reflects
      | ok current =>
          unfold check
          dsimp only
          split
          · exact reflects
          · exact Reflects.scheduleApply reflects
  | timerFires =>
      simp only [MutualExclusionWatcher.step] at stepped
      split at stepped
      · obtain rfl := Option.some.inj stepped
        unfold timerFires
        dsimp only
        split
        · exact reflects
        · exact fun _ idle => nomatch idle
      · contradiction
  | settles throwing =>
      simp only [MutualExclusionWatcher.step] at stepped
      split at stepped
      · next runs =>
        exact Option.some.inj stepped ▸ reflects_settles tracks runs
      · contradiction
  | stop =>
      simp only [MutualExclusionWatcher.step] at stepped
      split at stepped
      · exact Option.some.inj stepped ▸ reflects
      · obtain rfl := Option.some.inj stepped
        exact nofun

end Provider

end MutualExclusionWatcher

/-- When no failed call is forgotten, a watcher at rest leaves the provider in
the mode of the observed state. -/
theorem provider_mode_of_quiescent
    {start finish : MutualExclusionWatcher ChartProvider}
    {labels : List (WatcherLabel (Option SyncStep))}
    (begins : (watcherMachine syncCharts).initial start)
    (applied : start.provider.pmtilesState = providerMode start.applied)
    (run : (watcherMachine syncCharts).exec start labels = some finish)
    (trying : (watcherMachine syncCharts).AllSteps (fun watcher label =>
      watcher.keepsTrying syncCharts label = true) start labels)
    (rests : finish.quiescent = true) :
    finish.provider.pmtilesState = providerMode finish.observed := by
  have starts : start.Tracks start.applied ∧ start.Reflects ∧
      start.Converged start.applied := by
    obtain ⟨observed, option, retryBaseMs, provider, rfl⟩ := begins
    have tracks := @MutualExclusionWatcher.tracks_created ChartProvider
      observed option retryBaseMs provider
    have initially : (MutualExclusionWatcher.created observed option
        retryBaseMs provider).applied = option.getD observed := by
      unfold MutualExclusionWatcher.created
      rw [MutualExclusionWatcher.scheduleApply_eq]
    rw [initially]
    refine ⟨tracks, fun _ _ _ => applied, tracks.converged_iff.mpr ?_⟩
    intro _
    unfold MutualExclusionWatcher.created
    rw [MutualExclusionWatcher.failed_scheduleApply]
    rfl
  have ends : finish.Tracks start.applied ∧ finish.Reflects ∧
      finish.Converged start.applied := by
    apply Machine.exec_preserves_of_allSteps _ run trying starts
    rintro watcher label next ⟨tracks, reflects, converged⟩ met stepped
    exact ⟨tracks.step stepped, reflects.step tracks stepped,
      (tracks.converged_step converged stepped).mpr met⟩
  obtain ⟨tracks, reflects, converged⟩ := ends
  have quiet := tracks.converged_iff.mp converged rests
  rw [tracks.settled rests]
  simp only [MutualExclusionWatcher.quiescent, Bool.and_eq_true,
    Option.isNone_iff_eq_none, Bool.not_eq_true'] at rests
  exact reflects rests.2 rests.1.2 quiet

def sampleWatcher : MutualExclusionWatcher ChartProvider :=
  .created false (some false) none ⟨true, .serving⟩

theorem sampleWatcher_initial :
    (watcherMachine syncCharts).initial sampleWatcher :=
  ⟨false, some false, none, ⟨true, .serving⟩, rfl⟩

/-- The third-party plugin is enabled and the call for it succeeds. -/
def sampleFlip : List (WatcherLabel (Option SyncStep)) :=
  [.check (.ok true), .timerFires, .settles none]

theorem watcher_converges_after_sampleFlip :
    ∃ finish, (watcherMachine syncCharts).exec sampleWatcher sampleFlip =
        some finish ∧ finish.Converged false ∧
      finish.provider.pmtilesState = .conflict := by
  have run : ((watcherMachine syncCharts).exec sampleWatcher
      sampleFlip).map (fun finish => (finish.quiescent, finish.observed)) =
        some (true, true) := by
    decide +kernel
  obtain ⟨finish, ran, facts⟩ := Option.map_eq_some_iff.mp run
  obtain ⟨rests, observed⟩ := Prod.mk.inj facts
  have trying : (watcherMachine syncCharts).AllSteps (fun watcher label =>
      watcher.keepsTrying syncCharts label = true) sampleWatcher
      sampleFlip := by
    decide +kernel
  have mode := provider_mode_of_quiescent sampleWatcher_initial rfl ran
    trying rests
  rw [observed] at mode
  have exact := (watcher_converges_iff sampleWatcher_initial ran).2
  refine ⟨finish, ran, ?_, mode⟩
  apply exact.mpr trying sampleFlip [] finish _ ran
  rw [List.append_nil]

/-- The third-party plugin is disabled again while the discovery fails to
stop. -/
def sampleFlipBack : List (WatcherLabel (Option SyncStep)) :=
  [.check (.ok true), .timerFires, .check (.ok false),
    .settles (some .stopDiscovery)]

/-- The watcher comes to rest behind a failed call for the state which is not
observed any more, and leaves the provider in its mode. -/
theorem watcher_rests_in_wrong_mode :
    ∃ finish, (watcherMachine syncCharts).exec sampleWatcher sampleFlipBack =
        some finish ∧ ¬ finish.Converged sampleWatcher.applied ∧
      finish.quiescent = true ∧ finish.observed = false ∧
      finish.provider.pmtilesState = .conflict := by
  have run : ((watcherMachine syncCharts).exec sampleWatcher
      sampleFlipBack).map (fun finish => (finish.quiescent, finish.observed,
        finish.calls, finish.provider.pmtilesState)) =
        some (true, false, [⟨true, some false⟩], .conflict) := by
    decide +kernel
  obtain ⟨finish, ran, seen⟩ := Option.map_eq_some_iff.mp run
  simp only [Prod.mk.injEq] at seen
  obtain ⟨rests, observed, calls, mode⟩ := seen
  refine ⟨finish, ran, fun converged => ?_, rests, observed, mode⟩
  have last := converged rests
  rw [calls, observed] at last
  contradiction

end ChartLocker.Plugin
