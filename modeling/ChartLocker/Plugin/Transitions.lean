import ChartLocker.Library.Machine

/-!
# The lifecycle of the plugin and its manager operations

The plugin asks the container manager to run, to recreate and to stop one
container of a fixed name.  An operation of the manager may settle long after
its caller has stopped waiting.  Such operations are joined in one pending
transition, and a launch which outlived its caller is followed by a stop of
its own.

One label is one stretch of the plugin's code between two awaits, a call of
the server or the settlement of an operation.  A timer may fire at any time.
-/

namespace ChartLocker.Plugin

open Library

/-! ## Manager operations -/

inductive OperationKind where
  | ensureRunning
  | recreate
  | stop
deriving DecidableEq, Repr

/-- The operation creates a container. -/
def OperationKind.launches : OperationKind → Bool
  | .ensureRunning | .recreate => true
  | .stop => false

inductive Settlement where
  | completed
  | rejected
deriving DecidableEq, Repr

structure Operation where
  kind : OperationKind
  settlement : Option Settlement
deriving DecidableEq, Repr

/-- The await points of the task which `scheduleLateEnsureCleanup` starts. -/
inductive CleanupPhase where
  | awaiting
  | stopping (operation : Nat)
  | done
deriving DecidableEq, Repr

structure Cleanup where
  launch : Nat
  phase : CleanupPhase
deriving DecidableEq, Repr

/-- A promise which `trackManagerTransition` was given. -/
inductive Transition where
  | operation (index : Nat)
  | cleanup (index : Nat)
deriving DecidableEq, Repr

/-- The operations in the order in which they were issued, the late cleanups
and the promises which the pending transition joins. -/
structure Ledger where
  operations : List Operation
  cleanups : List Cleanup
  pendingManagerTransition : Option (List Transition)
deriving DecidableEq, Repr

namespace Ledger

variable (ledger : Ledger)

/-- Call the manager; the operation gets the next index. -/
def issue (kind : OperationKind) : Ledger :=
  { ledger with operations := ledger.operations ++ [⟨kind, none⟩] }

/-- The index of the next operation. -/
def next : Nat := ledger.operations.length

def settlement (index : Nat) : Option Settlement :=
  ledger.operations[index]?.bind Operation.settlement

def settle (index : Nat) (settlement : Settlement) : Ledger :=
  { ledger with
    operations := ledger.operations.modify index fun operation =>
      { operation with settlement := some settlement } }

/-- The new transition joins whatever is still outstanding. -/
def trackManagerTransition (transition : Transition) : Ledger :=
  { ledger with
    pendingManagerTransition :=
      some (ledger.pendingManagerTransition.getD [] ++ [transition]) }

def scheduleLateEnsureCleanup (launch : Nat) : Ledger :=
  let scheduled : Ledger :=
    { ledger with cleanups := ledger.cleanups ++ [⟨launch, .awaiting⟩] }
  scheduled.trackManagerTransition (.cleanup ledger.cleanups.length)

def setCleanup (index : Nat) (phase : CleanupPhase) : Ledger :=
  { ledger with
    cleanups := ledger.cleanups.modify index fun cleanup =>
      { cleanup with phase := phase } }

def settled : Transition → Bool
  | .operation index => (ledger.settlement index).isSome
  | .cleanup index =>
      ledger.cleanups[index]?.all fun cleanup => cleanup.phase == .done

/-- The slot is cleared once everything which it joins has settled. -/
def clear : Option Ledger :=
  match ledger.pendingManagerTransition with
  | some transitions =>
      if transitions.all ledger.settled then
        some { ledger with pendingManagerTransition := none }
      else
        none
  | none => none

/-- A late cleanup goes on.  Its `manager.stop` may throw. -/
def cleanup (index : Nat) (issued : Bool) : Option Ledger :=
  match ledger.cleanups[index]? with
  | some ⟨launch, .awaiting⟩ =>
      match ledger.settlement launch with
      | some .completed =>
          if issued then
            some ((ledger.issue .stop).setCleanup index
              (.stopping ledger.next))
          else
            some (ledger.setCleanup index .done)
      | some .rejected => some (ledger.setCleanup index .done)
      | none => none
  | some ⟨_, .stopping operation⟩ =>
      if (ledger.settlement operation).isSome then
        some (ledger.setCleanup index .done)
      else
        none
  | _ => none

end Ledger

/-! ## The plugin -/

inductive Call where
  | start (valid : Bool)
  | stop
deriving DecidableEq, Repr

/-- The await points of `doStart`, as far as the manager is concerned. -/
inductive StartPhase where
  | preparing
  | waitingPrior
  | adopting
  | ensuring (operation : Nat)
  | stoppingVolume (operation : Nat)
  | addressing
  | finishing
deriving DecidableEq, Repr

/-- The await points of `doStop`. -/
inductive StopPhase where
  | stoppingMonitor
  | tearingDown
  | stoppingContainer
deriving DecidableEq, Repr

/-- What runs on the `lifecycle` promise.  A start which finds the plugin
running stops it and goes on. -/
inductive Lifecycle where
  | idle
  | starting (phase : StartPhase)
  | stopping (phase : StopPhase) (restarts : Bool)
deriving DecidableEq, Repr

/-- The await points of a check of the host health monitor. -/
inductive MonitorPhase where
  | idle
  | probing
  | waitingPrior
  | recreating (operation : Nat)
  | stoppingVolume (operation : Nat)
  | restoring
deriving DecidableEq, Repr

structure Monitor where
  disposed : Bool
  phase : MonitorPhase
deriving DecidableEq, Repr

structure PluginState where
  ledger : Ledger
  /-- The calls of the server which wait on the `lifecycle` promise. -/
  calls : List Call
  lifecycle : Lifecycle
  /-- The signal of the start controller. -/
  aborted : Bool
  pluginRunning : Bool
  tilecacheOwned : Bool
  monitor : Option Monitor
deriving DecidableEq, Repr

/-- What `doStart` finds after an await.  `charts` says that the promise of
the charts, which an early return awaits, is fulfilled, `issued` that the call
of the manager does not throw. -/
inductive StartEvent where
  | failed
  | left (charts : Bool)
  | ready
  | waited
  | aborted (resolved charts : Bool)
  | launch (resolved issued : Bool)
  | timedOut
  | completed
  | rejected (volumeUnavailable issued : Bool)
  | addressed (monitored : Bool)
deriving DecidableEq, Repr

inductive MonitorEvent where
  | check
  | checked
  | restart (issued : Bool)
  | timedOut
  | waited
  | completed
  | rejected (volumeUnavailable issued : Bool)
deriving DecidableEq, Repr

inductive StopEvent where
  | monitorStopped
  | tornDown (issued : Bool)
  | waited
deriving DecidableEq, Repr

inductive PluginLabel where
  | call (call : Call)
  | take
  | start (event : StartEvent)
  | monitor (event : MonitorEvent)
  | stop (event : StopEvent)
  | cleanup (index : Nat) (issued : Bool)
  | settle (index : Nat) (settlement : Settlement)
  | clear
deriving DecidableEq, Repr

namespace PluginState

variable (state : PluginState)

/-- The pending transition is `null`. -/
def unobstructed : Bool :=
  state.ledger.pendingManagerTransition.isNone

def withLedger (ledger : Ledger) : PluginState :=
  { state with ledger := ledger }

/-- The manager has reported an address of the container, or has not. -/
def adopt (resolved : Bool) : PluginState :=
  { state with tilecacheOwned := state.tilecacheOwned || resolved }

/-- The start ends with a host health monitor, or without one. -/
def watch (monitored : Bool) : PluginState :=
  if monitored then { state with monitor := some ⟨false, .idle⟩ } else state

def atPhase (phase : StartPhase) : PluginState :=
  { state with lifecycle := .starting phase }

/-- `doStart` from its own controller on. -/
def enterStart : PluginState :=
  { state with
    lifecycle := .starting .preparing
    aborted := false
    pluginRunning := true }

/-- `doStop` up to the stop of the monitor. -/
def enterStop (restarts : Bool) : PluginState :=
  { state with
    lifecycle := .stopping .stoppingMonitor restarts
    pluginRunning := false
    monitor := state.monitor.map fun monitor =>
      { monitor with disposed := true } }

/-- `doStart` returns, or throws and is followed by `doStop`. -/
def leaveStart (returned : Bool) : PluginState :=
  if returned then { state with lifecycle := .idle }
  else state.enterStop false

/-- The next call on the `lifecycle` promise. -/
def take : Option PluginState :=
  match state.lifecycle, state.calls with
  | .idle, .start valid :: rest =>
      let taken := { state with calls := rest }
      if valid then
        if state.pluginRunning then some (taken.enterStop true)
        else some taken.enterStart
      else
        some (taken.enterStop false)
  | .idle, .stop :: rest => some ({ state with calls := rest }.enterStop false)
  | _, _ => none

/-- `stopForUnavailableVolume` up to its await. -/
def stopVolume : PluginState :=
  state.withLedger (state.ledger.issue .stop)

/-- `doStart` goes on from an await. -/
def startFrom (phase : StartPhase) (event : StartEvent) :
    Option PluginState :=
  match phase, event with
  | .preparing, .failed => some (state.leaveStart false)
  | .preparing, .left charts => some (state.leaveStart charts)
  | .preparing, .ready =>
      some (state.atPhase (if state.unobstructed then .adopting
        else .waitingPrior))
  | .waitingPrior, .waited =>
      some (state.atPhase (if state.unobstructed then .adopting
        else .finishing))
  | .waitingPrior, .aborted _ charts =>
      if state.aborted then some (state.leaveStart charts) else none
  | .adopting, .failed => some (state.atPhase .finishing)
  | .adopting, .aborted resolved charts =>
      if state.aborted then
        some ((state.adopt resolved).leaveStart charts)
      else
        none
  | .adopting, .launch resolved issued =>
      let adopted := state.adopt resolved
      if issued then
        some ((adopted.withLedger
          (state.ledger.issue .ensureRunning)).atPhase
            (.ensuring state.ledger.next))
      else
        some (adopted.atPhase .finishing)
  | .ensuring operation, .aborted _ charts =>
      if state.aborted then
        some ((state.withLedger
          (state.ledger.scheduleLateEnsureCleanup
            operation)).leaveStart charts)
      else
        none
  | .ensuring operation, .timedOut =>
      some ((state.withLedger
        (state.ledger.scheduleLateEnsureCleanup operation)).atPhase
          .finishing)
  | .ensuring operation, .completed =>
      if state.ledger.settlement operation = some .completed then
        some ((state.adopt true).atPhase .addressing)
      else
        none
  | .ensuring operation, .rejected volumeUnavailable issued =>
      if state.ledger.settlement operation = some .rejected then
        if volumeUnavailable && issued then
          some (state.stopVolume.atPhase (.stoppingVolume state.ledger.next))
        else
          some (state.atPhase .finishing)
      else
        none
  | .stoppingVolume operation, .waited =>
      if (state.ledger.settlement operation).isSome then
        some (state.atPhase .finishing)
      else
        none
  | .stoppingVolume operation, .timedOut =>
      some ((state.withLedger
        (state.ledger.trackManagerTransition
          (.operation operation))).atPhase .finishing)
  | .addressing, .aborted _ charts =>
      if state.aborted then some (state.leaveStart charts) else none
  | .addressing, .addressed monitored =>
      some ((state.watch monitored).atPhase .finishing)
  | .finishing, .left charts => some (state.leaveStart charts)
  | _, _ => none

def start (event : StartEvent) : Option PluginState :=
  match state.lifecycle with
  | .starting phase => state.startFrom phase event
  | _ => none

def setMonitor (monitor : Monitor) (phase : MonitorPhase) : PluginState :=
  { state with monitor := some { monitor with phase := phase } }

/-- `manager.recreate` in `restart`. -/
def recreate (monitor : Monitor) (issued : Bool) : PluginState :=
  if issued then
    (state.withLedger (state.ledger.issue .recreate)).setMonitor monitor
      (.recreating state.ledger.next)
  else
    state.setMonitor monitor .idle

/-- A check of the monitor goes on from an await.  A check which
`monitor.stop` has disposed of still finishes what it awaits. -/
def checkFrom (monitor : Monitor) (event : MonitorEvent) :
    Option PluginState :=
  match monitor.phase, event with
  | .idle, .check =>
      if monitor.disposed then none
      else some (state.setMonitor monitor .probing)
  | .probing, .checked => some (state.setMonitor monitor .idle)
  | .probing, .restart issued =>
      if monitor.disposed then none
      else if state.unobstructed then some (state.recreate monitor issued)
      else some (state.setMonitor monitor .waitingPrior)
  | .waitingPrior, .restart issued =>
      if state.unobstructed then some (state.recreate monitor issued)
      else some (state.setMonitor monitor .idle)
  | .recreating operation, .timedOut =>
      some ((state.withLedger
        (state.ledger.scheduleLateEnsureCleanup operation)).setMonitor
          monitor .idle)
  | .recreating operation, .completed =>
      if state.ledger.settlement operation = some .completed then
        some (state.setMonitor monitor .restoring)
      else
        none
  | .recreating operation, .rejected volumeUnavailable issued =>
      if state.ledger.settlement operation = some .rejected then
        if volumeUnavailable && issued then
          some (state.stopVolume.setMonitor monitor
            (.stoppingVolume state.ledger.next))
        else
          some (state.setMonitor monitor .idle)
      else
        none
  | .stoppingVolume operation, .waited =>
      if (state.ledger.settlement operation).isSome then
        some (state.setMonitor monitor .idle)
      else
        none
  | .stoppingVolume operation, .timedOut =>
      some ((state.withLedger
        (state.ledger.trackManagerTransition
          (.operation operation))).setMonitor monitor .idle)
  | .restoring, .checked => some (state.setMonitor monitor .idle)
  | _, _ => none

def check (event : MonitorEvent) : Option PluginState :=
  match state.monitor with
  | some monitor => state.checkFrom monitor event
  | none => none

/-- `doStop` ends, or gives way to the start which called it. -/
def leaveStop (restarts : Bool) : PluginState :=
  let stopped := { state with tilecacheOwned := false }
  if restarts then stopped.enterStart
  else { stopped with lifecycle := .idle }

/-- `doStop` goes on from an await. -/
def stopFrom (phase : StopPhase) (restarts : Bool) (event : StopEvent) :
    Option PluginState :=
  match phase, event with
  | .stoppingMonitor, .monitorStopped =>
      if state.monitor.all fun monitor => monitor.phase == .idle then
        some { state with
          monitor := none
          lifecycle := .stopping .tearingDown restarts }
      else
        none
  | .tearingDown, .tornDown issued =>
      if state.tilecacheOwned && issued then
        some { state with
          ledger := (state.ledger.issue .stop).trackManagerTransition
            (.operation state.ledger.next)
          lifecycle := .stopping .stoppingContainer restarts }
      else
        some (state.leaveStop restarts)
  | .stoppingContainer, .waited => some (state.leaveStop restarts)
  | _, _ => none

def stop (event : StopEvent) : Option PluginState :=
  match state.lifecycle with
  | .stopping phase restarts => state.stopFrom phase restarts event
  | _ => none

/-- `plugin.start` and `plugin.stop` only chain their work; a stop aborts the
start under way. -/
def call (call : Call) : PluginState :=
  { state with
    calls := state.calls ++ [call]
    aborted := state.aborted || call == .stop }

def step : PluginLabel → Option PluginState
  | .call call => some (state.call call)
  | .take => state.take
  | .start event => state.start event
  | .monitor event => state.check event
  | .stop event => state.stop event
  | .cleanup index issued =>
      (state.ledger.cleanup index issued).map state.withLedger
  | .settle index settlement =>
      if state.ledger.operations[index]?.any fun operation =>
          operation.settlement.isNone then
        some (state.withLedger (state.ledger.settle index settlement))
      else
        none
  | .clear => state.ledger.clear.map state.withLedger

end PluginState

/-- A plugin of which the server has not called anything. -/
def newInstance : PluginState where
  ledger := ⟨[], [], none⟩
  calls := []
  lifecycle := .idle
  aborted := false
  pluginRunning := false
  tilecacheOwned := false
  monitor := none

def pluginMachine : Machine PluginState PluginLabel where
  initial state := state = newInstance
  step := PluginState.step

end ChartLocker.Plugin
