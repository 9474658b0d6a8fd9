import Mathlib.Data.Bool.Basic
import ChartLocker.Library.Machine

/-!
# The host-side health monitor

`createHostHealthMonitor` probes the container through its host-side address,
counts consecutive failures, and has the container restarted when they reach a
threshold.  The machine interleaves the continuations of one `runCheck` with
calls of the monitor's own methods; the answers of the probes, of the restart
and of the restore, and the readings of the clock are on the labels.
-/

namespace ChartLocker.Plugin

open Library

/-! ## The monitor -/

inductive HostHealthState where
  | healthy
  | hostUnreachable (failureCount failureThreshold : Nat)
  | restarting
  | restoring
  | containerUnhealthy
  | recovered
  | recoveryFailed (error : String)
deriving DecidableEq, Repr

structure HostProbeResult where
  healthy : Bool
  configured : Option Bool
deriving DecidableEq, Repr

/-- The options which `createHostHealthMonitor` accepts. -/
structure HostHealthMonitorOptions where
  failureThreshold : Nat
  recoveryCooldownMs : Int
  restoreInitially : Bool
  threshold : 0 < failureThreshold
  cooldown : 0 ≤ recoveryCooldownMs

/-- Who has asked for a check. -/
inductive CheckCaller where
  | timer
  | checkNow
deriving DecidableEq, Repr

/-- What a running `runCheck` waits for. -/
inductive CheckPoint where
  | probeHost (address : String)
  | restore
  | probeContainer
  | restart
  | reprobeHost
  | restoreAfterRestart
deriving DecidableEq, Repr

/-- What the monitor has done and seen: a regular probe, the probe after a
restart, the call of `restart`, and the callbacks. -/
inductive HostHealthEvent where
  | probed (healthy : Bool)
  | reprobed (healthy : Bool)
  | restart (now : Int)
  | onState (state : HostHealthState)
  | onAddress (address : Option String)
deriving DecidableEq, Repr

/-- The variables of the closure, the queue of checks and, newest first, the
events up to now. -/
structure HostHealthMonitor where
  running : Bool
  disposed : Bool
  timer : Bool
  consecutiveFailures : Nat
  nextRecoveryAt : Int
  restorePendingAddress : Option String
  recoveryPending : Bool
  queued : List CheckCaller
  check : Option (CheckCaller × CheckPoint)
  clock : Int
  log : List HostHealthEvent
deriving DecidableEq, Repr

namespace HostHealthMonitor

def created (options : HostHealthMonitorOptions) (address : Option String)
    (now : Int) : HostHealthMonitor where
  running := false
  disposed := false
  timer := false
  consecutiveFailures := 0
  nextRecoveryAt := 0
  restorePendingAddress := if options.restoreInitially then address else none
  recoveryPending := false
  queued := []
  check := none
  clock := now
  log := []

def notes (monitor : HostHealthMonitor) (event : HostHealthEvent) :
    HostHealthMonitor :=
  { monitor with log := event :: monitor.log }

def reports (monitor : HostHealthMonitor) (state : HostHealthState) :
    HostHealthMonitor :=
  monitor.notes (.onState state)

def awaits (monitor : HostHealthMonitor) (caller : CheckCaller)
    (point : CheckPoint) : HostHealthMonitor :=
  { monitor with check := some (caller, point) }

def schedule (monitor : HostHealthMonitor) : HostHealthMonitor :=
  if !monitor.running || monitor.disposed || monitor.timer then monitor
  else { monitor with timer := true }

/-- The end of a check; the timer's own check sets the timer again. -/
def ends (monitor : HostHealthMonitor) : CheckCaller → HostHealthMonitor
  | .timer => schedule { monitor with check := none }
  | .checkNow => { monitor with check := none }

/-- The `catch` of a recovery. -/
def recoveryFails (monitor : HostHealthMonitor) (caller : CheckCaller)
    (message : String) : HostHealthMonitor :=
  if monitor.disposed then monitor.ends caller
  else (monitor.reports (.recoveryFailed message)).ends caller

def recovers (monitor : HostHealthMonitor) (caller : CheckCaller) :
    HostHealthMonitor :=
  if monitor.disposed then monitor.ends caller
  else
    (reports { monitor with
      restorePendingAddress := none
      recoveryPending := false
      consecutiveFailures := 0
      nextRecoveryAt := 0 } .recovered).ends caller

def callsRestart (monitor : HostHealthMonitor) (caller : CheckCaller)
    (now : Int) : HostHealthMonitor :=
  ((monitor.reports .restarting).notes (.restart now)).awaits caller .restart

/-- The address to restore after a healthy probe. -/
def restoreAddress (monitor : HostHealthMonitor) (address : String)
    (status : HostProbeResult) : Option String :=
  let pending := if status.configured = some false then some address
    else monitor.restorePendingAddress
  if monitor.recoveryPending && pending.isNone then some address else pending

/-- The branch of `runCheck` for a healthy host. -/
def hostHealthy (options : HostHealthMonitorOptions)
    (monitor : HostHealthMonitor) (caller : CheckCaller) (address : String)
    (status : HostProbeResult) (now : Int) : HostHealthMonitor :=
  let pending := monitor.restoreAddress address status
  if pending.isSome then
    if now < monitor.nextRecoveryAt then
      ends { monitor with restorePendingAddress := pending } caller
    else
      (reports { monitor with
        restorePendingAddress := pending
        nextRecoveryAt := now + options.recoveryCooldownMs }
          .restoring).awaits caller .restore
  else
    (reports { monitor with
      restorePendingAddress := pending
      consecutiveFailures := 0
      nextRecoveryAt := 0 } .healthy).ends caller

/-- The rest of `runCheck` for an unreachable host. -/
def hostFailed (options : HostHealthMonitorOptions)
    (monitor : HostHealthMonitor) (caller : CheckCaller) (now : Int) :
    HostHealthMonitor :=
  let failures :=
    min (monitor.consecutiveFailures + 1) options.failureThreshold
  let counted := { monitor with consecutiveFailures := failures }
  let unreachable := HostHealthState.hostUnreachable failures
    options.failureThreshold
  if failures < options.failureThreshold then
    (counted.reports unreachable).ends caller
  else if now < monitor.nextRecoveryAt then counted.ends caller
  else
    let limited := { counted.reports unreachable with
      nextRecoveryAt := now + options.recoveryCooldownMs }
    if monitor.recoveryPending then limited.callsRestart caller now
    else limited.awaits caller .probeContainer

/-- `runCheck` behind the first probe.  A rejected probe counts as a failed
one. -/
def hostProbed (options : HostHealthMonitorOptions)
    (monitor : HostHealthMonitor) (caller : CheckCaller) (address : String)
    (result : Except String HostProbeResult) (now : Int) :
    HostHealthMonitor :=
  let status : HostProbeResult := match result with
    | .ok status => status
    | .error _ => ⟨false, none⟩
  let seen := { monitor with clock := now }.notes (.probed status.healthy)
  if monitor.disposed then seen.ends caller
  else if status.healthy then
    seen.hostHealthy options caller address status now
  else seen.hostFailed options caller now

/-- `runCheck` behind the healthcheck inside the container. -/
def containerProbed (monitor : HostHealthMonitor) (caller : CheckCaller)
    (result : Except String Bool) (now : Int) : HostHealthMonitor :=
  let later := { monitor with clock := now }
  if monitor.disposed then later.ends caller
  else
    match result with
    | .ok true => { later with recoveryPending := true }.callsRestart caller now
    | _ => (later.reports .containerUnhealthy).ends caller

/-- `runCheck` behind the restart. -/
def restarted (monitor : HostHealthMonitor) (caller : CheckCaller) :
    Except String (Option String) → HostHealthMonitor
  | .error message => monitor.recoveryFails caller message
  | .ok recovered =>
      if monitor.disposed then monitor.ends caller
      else
        let placed := monitor.notes (.onAddress recovered)
        match recovered with
        | none => placed.recoveryFails caller
            "container address did not resolve after restart"
        | some address => { placed with
            restorePendingAddress := some address }.awaits caller .reprobeHost

/-- `runCheck` behind the probe after a restart. -/
def reprobed (monitor : HostHealthMonitor) (caller : CheckCaller) :
    Except String HostProbeResult → HostHealthMonitor
  | .error message =>
      (monitor.notes (.reprobed false)).recoveryFails caller message
  | .ok status =>
      let seen := monitor.notes (.reprobed status.healthy)
      if status.healthy then
        (seen.reports .restoring).awaits caller .restoreAfterRestart
      else seen.recoveryFails caller
        "host-side health probe still fails after restart"

/-- `runCheck` behind either call of `restore`. -/
def restored (monitor : HostHealthMonitor) (caller : CheckCaller) :
    Except String Unit → HostHealthMonitor
  | .error message => monitor.recoveryFails caller message
  | .ok _ => monitor.recovers caller

end HostHealthMonitor

/-! ## The machine -/

inductive MonitorLabel where
  | start
  | stop
  | timerFires
  | checkNow
  | runCheck (address : Option String)
  | hostProbed (result : Except String HostProbeResult) (now : Int)
  | containerProbed (result : Except String Bool) (now : Int)
  | restarted (result : Except String (Option String))
  | reprobed (result : Except String HostProbeResult)
  | restored (result : Except String Unit)

namespace HostHealthMonitor

/-- One callback of the event loop.  The clock does not run backwards, and the
next check of the queue begins when there is none on its way. -/
def step (options : HostHealthMonitorOptions) (monitor : HostHealthMonitor) :
    MonitorLabel → Option HostHealthMonitor
  | .start =>
      if monitor.disposed || monitor.running then some monitor
      else some (schedule { monitor with running := true })
  | .stop =>
      if monitor.disposed then some monitor
      else
        some { monitor with
          disposed := true
          running := false
          timer := false }
  | .timerFires =>
      if monitor.timer then
        some { monitor with
          timer := false
          queued := monitor.queued ++ [.timer] }
      else none
  | .checkNow => some { monitor with queued := monitor.queued ++ [.checkNow] }
  | .runCheck address =>
      match monitor.check, monitor.queued with
      | none, caller :: rest =>
          let begun := { monitor with queued := rest }
          if monitor.disposed then some (begun.ends caller)
          else
            match address with
            | none => some (begun.ends caller)
            | some address => some (begun.awaits caller (.probeHost address))
      | _, _ => none
  | .hostProbed result now =>
      match monitor.check with
      | some (caller, .probeHost address) =>
          if now < monitor.clock then none
          else some (monitor.hostProbed options caller address result now)
      | _ => none
  | .containerProbed result now =>
      match monitor.check with
      | some (caller, .probeContainer) =>
          if now < monitor.clock then none
          else some (monitor.containerProbed caller result now)
      | _ => none
  | .restarted result =>
      match monitor.check with
      | some (caller, .restart) => some (monitor.restarted caller result)
      | _ => none
  | .reprobed result =>
      match monitor.check with
      | some (caller, .reprobeHost) => some (monitor.reprobed caller result)
      | _ => none
  | .restored result =>
      match monitor.check with
      | some (caller, .restore) => some (monitor.restored caller result)
      | some (caller, .restoreAfterRestart) =>
          some (monitor.restored caller result)
      | _ => none

end HostHealthMonitor

def monitorMachine (options : HostHealthMonitorOptions) :
    Machine HostHealthMonitor MonitorLabel where
  initial monitor := ∃ address now,
    monitor = HostHealthMonitor.created options address now
  step := HostHealthMonitor.step options

/-! ## What the events say -/

/-- The regular probes, all failed, since the last healthy probe. -/
def failuresInARow : List HostHealthEvent → Nat
  | [] => 0
  | .probed true :: _ => 0
  | .reprobed true :: _ => 0
  | .probed false :: earlier => failuresInARow earlier + 1
  | _ :: earlier => failuresInARow earlier

/-- The restarts since the last healthy or recovered state. -/
def unclearedRestarts : List HostHealthEvent → List Int
  | [] => []
  | .onState .healthy :: _ => []
  | .onState .recovered :: _ => []
  | .restart now :: earlier => now :: unclearedRestarts earlier
  | _ :: earlier => unclearedRestarts earlier

/-- Every restart among the events follows as many failures as the threshold
asks for. -/
def RestartsCounted (options : HostHealthMonitorOptions)
    (log : List HostHealthEvent) : Prop :=
  ∀ later earlier now, log = later ++ .restart now :: earlier →
    options.failureThreshold ≤ failuresInARow earlier

/-- Every restart among the events keeps its distance from earlier ones. -/
def RestartsSpaced (options : HostHealthMonitorOptions)
    (log : List HostHealthEvent) : Prop :=
  ∀ later earlier now, log = later ++ .restart now :: earlier →
    ∀ before ∈ unclearedRestarts earlier,
      before + options.recoveryCooldownMs ≤ now

/-- Unless the monitor is disposed, a healthy probe whose restore is put off or
fails finds no failure counted. -/
def HostHealthMonitor.keepsCount (monitor : HostHealthMonitor)
    (label : MonitorLabel) : Bool :=
  monitor.disposed ||
    match label, monitor.check with
    | .hostProbed (.ok status) now, some (_, .probeHost address) =>
        !(status.healthy && (monitor.restoreAddress address status).isSome &&
          decide (now < monitor.nextRecoveryAt)) ||
            decide (monitor.consecutiveFailures = 0)
    | .restored (.error _), _ => decide (monitor.consecutiveFailures = 0)
    | _, _ => true

/-- Unless the monitor is disposed, the cooldown of a recovery still counts
from the moment at which the healthcheck inside the container has
succeeded. -/
def HostHealthMonitor.punctual (options : HostHealthMonitorOptions)
    (monitor : HostHealthMonitor) : MonitorLabel → Bool
  | .containerProbed (.ok true) now =>
      monitor.disposed ||
        decide (now + options.recoveryCooldownMs ≤ monitor.nextRecoveryAt)
  | _ => true

/-- A restart after these events, at this time, as far as the failures are
counted and the deadlines are kept. -/
structure RestartAllowed (counts spaces : Prop)
    (options : HostHealthMonitorOptions) (earlier : List HostHealthEvent)
    (now : Int) : Prop where
  failures : counts → options.failureThreshold ≤ failuresInARow earlier
  cooldown : spaces → ∀ before ∈ unclearedRestarts earlier,
    before + options.recoveryCooldownMs ≤ now

def RestartsAllowed (counts spaces : Prop)
    (options : HostHealthMonitorOptions) (log : List HostHealthEvent) : Prop :=
  ∀ later earlier now, log = later ++ .restart now :: earlier →
    RestartAllowed counts spaces options earlier now

section Events

variable {counts spaces : Prop} {options : HostHealthMonitorOptions}
  {log : List HostHealthEvent} {event : HostHealthEvent}

theorem restartsAllowed_nil : RestartsAllowed counts spaces options [] := by
  intro later earlier now same
  cases later <;> contradiction

theorem restartsAllowed_cons
    (allowed : RestartsAllowed counts spaces options log)
    (next : ∀ now, event = .restart now →
      RestartAllowed counts spaces options log now) :
    RestartsAllowed counts spaces options (event :: log) := by
  intro later earlier now same
  cases later with
  | nil =>
      obtain ⟨rfl, rfl⟩ := List.cons.inj same
      exact next now rfl
  | cons first rest =>
      obtain ⟨_, rfl⟩ := List.cons.inj same
      exact allowed rest earlier now rfl

end Events

/-! ## The invariant -/

/-- Whether a restore is on its way, after which the failures may be
forgotten. -/
def HostHealthMonitor.clearing (monitor : HostHealthMonitor) : Bool :=
  match monitor.check with
  | some (_, .restore) => true
  | some (_, .restoreAfterRestart) => true
  | _ => false

/-- How the variables of a live monitor follow from its events. -/
structure HostHealthMonitor.Settled (spaces : Prop)
    (options : HostHealthMonitorOptions) (monitor : HostHealthMonitor) :
    Prop where
  spaced : spaces → ∀ before ∈ unclearedRestarts monitor.log,
    before + options.recoveryCooldownMs ≤ monitor.nextRecoveryAt
  first : monitor.recoveryPending = false →
    unclearedRestarts monitor.log = []

structure HostHealthMonitor.Watched (counts spaces : Prop)
    (options : HostHealthMonitorOptions) (monitor : HostHealthMonitor) :
    Prop where
  allowed : RestartsAllowed counts spaces options monitor.log
  settled : monitor.disposed = false → monitor.Settled spaces options
  counted : monitor.disposed = false → monitor.clearing = false → counts →
    monitor.consecutiveFailures ≤ failuresInARow monitor.log
  asked : monitor.disposed = false →
    ∀ caller, monitor.check = some (caller, .probeContainer) →
      options.failureThreshold ≤ monitor.consecutiveFailures ∧
        monitor.recoveryPending = false

namespace HostHealthMonitor

section Invariant

variable {counts spaces : Prop} {options : HostHealthMonitorOptions}
  {monitor : HostHealthMonitor} {caller : CheckCaller}

theorem ends_eq : monitor.ends caller =
    { monitor with
      check := none
      timer := (monitor.ends caller).timer } := by
  cases caller with
  | checkNow => rfl
  | timer =>
      unfold ends schedule
      dsimp only
      split <;> rfl

theorem Watched.ends
    (allowed : RestartsAllowed counts spaces options monitor.log)
    (settled : monitor.disposed = false → monitor.Settled spaces options)
    (counted : monitor.disposed = false → counts →
      monitor.consecutiveFailures ≤ failuresInARow monitor.log) :
    (monitor.ends caller).Watched counts spaces options := by
  rw [ends_eq]
  exact ⟨allowed, fun lives => ⟨(settled lives).spaced, (settled lives).first⟩,
    fun lives _ => counted lives, fun _ _ waits => nomatch waits⟩

theorem Watched.ends_of_disposed (gone : monitor.disposed = true)
    (allowed : RestartsAllowed counts spaces options monitor.log) :
    (monitor.ends caller).Watched counts spaces options := by
  apply Watched.ends
  · exact allowed
  · intro lives
    rw [gone] at lives
    contradiction
  · intro lives
    rw [gone] at lives
    contradiction

theorem settled_of_cleared (cleared : unclearedRestarts monitor.log = []) :
    monitor.Settled spaces options where
  spaced := by
    intro _ before member
    rw [cleared] at member
    contradiction
  first := fun _ => cleared

theorem watched_created (address : Option String) (now : Int) :
    (created options address now).Watched counts spaces options where
  allowed := restartsAllowed_nil
  settled := fun _ => settled_of_cleared rfl
  counted := fun _ _ _ => Nat.zero_le _
  asked := fun _ _ waits => nomatch waits

theorem Watched.recoveryFails {message : String}
    (allowed : RestartsAllowed counts spaces options monitor.log)
    (settled : monitor.disposed = false → monitor.Settled spaces options)
    (counted : monitor.disposed = false → counts →
      monitor.consecutiveFailures ≤ failuresInARow monitor.log) :
    (monitor.recoveryFails caller message).Watched counts spaces options := by
  unfold HostHealthMonitor.recoveryFails
  split
  · exact Watched.ends allowed settled counted
  · apply Watched.ends
    · exact restartsAllowed_cons allowed fun _ => nofun
    · exact fun lives =>
        ⟨(settled lives).spaced, (settled lives).first⟩
    · exact counted

/-- A recovery leaves nothing to count and no restart to keep away from. -/
theorem Watched.recovers
    (allowed : RestartsAllowed counts spaces options monitor.log) :
    (monitor.recovers caller).Watched counts spaces options := by
  unfold HostHealthMonitor.recovers
  split
  · next gone => exact Watched.ends_of_disposed gone allowed
  · apply Watched.ends
    · exact restartsAllowed_cons allowed fun _ => nofun
    · exact fun _ => settled_of_cleared rfl
    · exact fun _ _ => Nat.zero_le _

/-- A restart is called with the failures counted and the cooldown counting
from now. -/
theorem Watched.callsRestart {now : Int}
    (allowed : RestartsAllowed counts spaces options monitor.log)
    (next : RestartAllowed counts spaces options monitor.log now)
    (limited : spaces →
      now + options.recoveryCooldownMs ≤ monitor.nextRecoveryAt)
    (pending : monitor.recoveryPending = true)
    (counted : counts →
      monitor.consecutiveFailures ≤ failuresInARow monitor.log) :
    (monitor.callsRestart caller now).Watched counts spaces options where
  allowed := by
    apply restartsAllowed_cons
    · exact restartsAllowed_cons allowed fun _ => nofun
    · intro called same
      obtain rfl : now = called := HostHealthEvent.restart.inj same
      exact ⟨next.failures, next.cooldown⟩
  settled := by
    intro _
    constructor
    · intro spaced before member
      have limited := limited spaced
      rcases List.mem_cons.mp member with rfl | old
      · exact limited
      · have apart := next.cooldown spaced before old
        have positive := options.cooldown
        change before + _ ≤ monitor.nextRecoveryAt
        omega
    · intro absent
      have absent : monitor.recoveryPending = false := absent
      rw [pending] at absent
      contradiction
  counted := fun _ _ => counted
  asked := fun _ _ waits => nomatch waits

/-- A healthy probe clears the count, or a restore is on its way which may
clear it, or there is nothing counted. -/
theorem Watched.hostHealthy {address : String} {status : HostProbeResult}
    {now : Int} (allowed : RestartsAllowed counts spaces options monitor.log)
    (settled : monitor.Settled spaces options)
    (kept : (monitor.restoreAddress address status).isSome →
      now < monitor.nextRecoveryAt → counts →
        monitor.consecutiveFailures = 0) :
    (monitor.hostHealthy options caller address status now).Watched counts
      spaces options := by
  unfold HostHealthMonitor.hostHealthy
  dsimp only
  split
  · next pending =>
    split
    · next early =>
      apply Watched.ends
      · exact allowed
      · exact fun _ => ⟨settled.spaced, settled.first⟩
      · intro _ counted
        change monitor.consecutiveFailures ≤ _
        rw [kept pending early counted]
        exact Nat.zero_le _
    · next due =>
      constructor
      · exact restartsAllowed_cons allowed fun _ => nofun
      · intro _
        refine ⟨fun spaced before member => ?_, settled.first⟩
        have apart := settled.spaced spaced before member
        have positive := options.cooldown
        change before + _ ≤ now + _
        omega
      · exact fun _ rests => nomatch rests
      · exact fun _ _ waits => nomatch waits
  · apply Watched.ends
    · exact restartsAllowed_cons allowed fun _ => nofun
    · exact fun _ => settled_of_cleared rfl
    · exact fun _ _ => Nat.zero_le _

theorem Watched.hostFailed {now : Int}
    (allowed : RestartsAllowed counts spaces options monitor.log)
    (settled : monitor.Settled spaces options)
    (counted : counts →
      monitor.consecutiveFailures + 1 ≤ failuresInARow monitor.log) :
    (monitor.hostFailed options caller now).Watched counts spaces options := by
  unfold HostHealthMonitor.hostFailed
  dsimp only
  have enough : counts → min (monitor.consecutiveFailures + 1)
      options.failureThreshold ≤ failuresInARow monitor.log :=
    fun counting => Nat.le_trans (Nat.min_le_left _ _) (counted counting)
  split
  · apply Watched.ends
    · exact restartsAllowed_cons allowed fun _ => nofun
    · exact fun _ => ⟨settled.spaced, settled.first⟩
    · exact fun _ => enough
  · next many =>
    split
    · apply Watched.ends
      · exact allowed
      · exact fun _ => ⟨settled.spaced, settled.first⟩
      · exact fun _ => enough
    · next due =>
      have apart : spaces → ∀ before ∈ unclearedRestarts monitor.log,
          before + options.recoveryCooldownMs ≤ now :=
        fun spaced before member => Int.le_trans
          (settled.spaced spaced before member) (Int.not_lt.mp due)
      split
      · next pending =>
        apply Watched.callsRestart
        · exact restartsAllowed_cons allowed fun _ => nofun
        · exact ⟨fun counting => Nat.le_trans (Nat.not_lt.mp many)
            (enough counting), apart⟩
        · exact fun _ => Int.le_refl _
        · exact pending
        · exact enough
      · next fresh =>
        constructor
        · exact restartsAllowed_cons allowed fun _ => nofun
        · intro _
          refine ⟨fun spaced before member => ?_, settled.first⟩
          have far := apart spaced before member
          have positive := options.cooldown
          change before + _ ≤ now + _
          omega
        · exact fun _ _ => enough
        · exact fun _ _ _ =>
            ⟨Nat.not_lt.mp many, Bool.eq_false_of_not_eq_true fresh⟩

end Invariant

section Steps

variable {counts spaces : Prop} {options : HostHealthMonitorOptions}
  {monitor next : HostHealthMonitor} {caller : CheckCaller}

theorem Watched.hostProbed {address : String}
    {result : Except String HostProbeResult} {now : Int}
    (watched : monitor.Watched counts spaces options)
    (waits : monitor.check = some (caller, .probeHost address))
    (kept : counts → monitor.keepsCount (.hostProbed result now) = true) :
    (monitor.hostProbed options caller address result now).Watched counts
      spaces options := by
  unfold HostHealthMonitor.hostProbed
  dsimp only
  have allowed : ∀ healthy, RestartsAllowed counts spaces options
      (.probed healthy :: monitor.log) :=
    fun healthy => restartsAllowed_cons watched.allowed fun _ => nofun
  have resting : monitor.clearing = false := by
    unfold clearing
    rw [waits]
  by_cases gone : monitor.disposed = true
  · rw [if_pos gone]
    exact Watched.ends_of_disposed gone (allowed _)
  · rw [if_neg gone]
    have lives := Bool.eq_false_of_not_eq_true gone
    have settled := watched.settled lives
    cases result with
    | error message =>
        apply Watched.hostFailed (allowed false)
        · exact ⟨settled.spaced, settled.first⟩
        · exact fun counting =>
            Nat.succ_le_succ (watched.counted lives resting counting)
    | ok status =>
        dsimp only
        split
        · next healthy =>
          apply Watched.hostHealthy (allowed _)
          · exact ⟨settled.spaced, settled.first⟩
          · intro pending early counting
            have kept := kept counting
            have pending : (monitor.restoreAddress address status).isSome =
              true := pending
            have early : now < monitor.nextRecoveryAt := early
            change monitor.consecutiveFailures = 0
            simpa [keepsCount, lives, waits, healthy, pending, early]
              using kept
        · next failed =>
          rw [Bool.eq_false_of_not_eq_true failed]
          apply Watched.hostFailed (allowed false)
          · exact ⟨settled.spaced, settled.first⟩
          · exact fun counting =>
              Nat.succ_le_succ (watched.counted lives resting counting)

theorem Watched.containerProbed {result : Except String Bool} {now : Int}
    (watched : monitor.Watched counts spaces options)
    (waits : monitor.check = some (caller, .probeContainer))
    (punctual : spaces →
      monitor.punctual options (.containerProbed result now) = true) :
    (monitor.containerProbed caller result now).Watched counts spaces
      options := by
  unfold HostHealthMonitor.containerProbed
  dsimp only
  have resting : monitor.clearing = false := by
    unfold clearing
    rw [waits]
  split
  · next gone =>
    exact Watched.ends_of_disposed gone watched.allowed
  · next present =>
    have lives := Bool.eq_false_of_not_eq_true present
    have settled := watched.settled lives
    have counted := watched.counted lives resting
    obtain ⟨reached, fresh⟩ := watched.asked lives caller waits
    split
    · apply Watched.callsRestart
      · exact watched.allowed
      · refine ⟨fun counting => Nat.le_trans reached (counted counting), ?_⟩
        intro _ before member
        have member : before ∈ unclearedRestarts monitor.log := member
        rw [settled.first fresh] at member
        contradiction
      · intro spaced
        simpa [HostHealthMonitor.punctual, lives] using punctual spaced
      · rfl
      · exact counted
    · apply Watched.ends
      · exact restartsAllowed_cons watched.allowed fun _ => nofun
      · exact fun _ => ⟨settled.spaced, settled.first⟩
      · exact fun _ => counted

theorem Watched.restarted {result : Except String (Option String)}
    (watched : monitor.Watched counts spaces options)
    (waits : monitor.check = some (caller, .restart)) :
    (monitor.restarted caller result).Watched counts spaces options := by
  have resting : monitor.clearing = false := by
    unfold clearing
    rw [waits]
  have counted := fun lives => watched.counted lives resting
  cases result with
  | error message =>
      exact Watched.recoveryFails watched.allowed watched.settled counted
  | ok recovered =>
      unfold HostHealthMonitor.restarted
      dsimp only
      split
      · next gone => exact Watched.ends_of_disposed gone watched.allowed
      · have placed : RestartsAllowed counts spaces options
            (.onAddress recovered :: monitor.log) :=
          restartsAllowed_cons watched.allowed fun _ => nofun
        cases recovered with
        | none =>
            apply Watched.recoveryFails placed
            · exact fun lives =>
                ⟨(watched.settled lives).spaced, (watched.settled lives).first⟩
            · exact counted
        | some address =>
            exact ⟨placed, fun lives =>
              ⟨(watched.settled lives).spaced, (watched.settled lives).first⟩,
              fun lives _ => counted lives, fun _ _ waits => nomatch waits⟩

theorem Watched.reprobed {result : Except String HostProbeResult}
    (watched : monitor.Watched counts spaces options)
    (waits : monitor.check = some (caller, .reprobeHost)) :
    (monitor.reprobed caller result).Watched counts spaces options := by
  have resting : monitor.clearing = false := by
    unfold clearing
    rw [waits]
  have counted := fun lives => watched.counted lives resting
  have seen : ∀ healthy, RestartsAllowed counts spaces options
      (.reprobed healthy :: monitor.log) :=
    fun healthy => restartsAllowed_cons watched.allowed fun _ => nofun
  have settled : ∀ healthy, monitor.disposed = false →
      (monitor.notes (.reprobed healthy)).Settled spaces options :=
    fun healthy lives =>
      ⟨(watched.settled lives).spaced, (watched.settled lives).first⟩
  cases result with
  | error message =>
      exact Watched.recoveryFails (seen false) (settled false) counted
  | ok status =>
      unfold HostHealthMonitor.reprobed
      dsimp only
      split
      · next healthy =>
        constructor
        · exact restartsAllowed_cons (seen _) fun _ => nofun
        · exact fun lives =>
            ⟨(watched.settled lives).spaced, (watched.settled lives).first⟩
        · exact fun _ rests => nomatch rests
        · exact fun _ _ waits => nomatch waits
      · next failed =>
        rw [Bool.eq_false_of_not_eq_true failed]
        exact Watched.recoveryFails (seen false) (settled false) counted

theorem Watched.restored {result : Except String Unit}
    (watched : monitor.Watched counts spaces options)
    (kept : counts → monitor.keepsCount (.restored result) = true) :
    (monitor.restored caller result).Watched counts spaces options := by
  cases result with
  | ok done => exact Watched.recovers watched.allowed
  | error message =>
      apply Watched.recoveryFails watched.allowed watched.settled
      intro lives counting
      have none : monitor.consecutiveFailures = 0 := by
        simpa [keepsCount, lives] using kept counting
      rw [none]
      exact Nat.zero_le _

theorem schedule_eq : monitor.schedule =
    { monitor with timer := monitor.schedule.timer } := by
  unfold schedule
  split <;> rfl

/-- What a step of a monitor keeps which keeps its count or its deadline. -/
theorem Watched.step (watched : monitor.Watched counts spaces options)
    {label : MonitorLabel}
    (kept : counts → monitor.keepsCount label = true)
    (punctual : spaces → monitor.punctual options label = true)
    (stepped : monitor.step options label = some next) :
    next.Watched counts spaces options := by
  have settled : monitor.disposed = false →
      (spaces → ∀ before ∈ unclearedRestarts monitor.log,
        before + options.recoveryCooldownMs ≤ monitor.nextRecoveryAt) ∧
      (monitor.recoveryPending = false →
        unclearedRestarts monitor.log = []) :=
    fun lives => ⟨(watched.settled lives).spaced, (watched.settled lives).first⟩
  cases label with
  | start =>
      simp only [HostHealthMonitor.step] at stepped
      split at stepped
      · exact Option.some.inj stepped ▸ watched
      · obtain rfl := Option.some.inj stepped
        rw [schedule_eq]
        exact ⟨watched.allowed, fun lives =>
          ⟨(settled lives).1, (settled lives).2⟩, watched.counted,
          watched.asked⟩
  | stop =>
      simp only [HostHealthMonitor.step] at stepped
      split at stepped
      · exact Option.some.inj stepped ▸ watched
      · obtain rfl := Option.some.inj stepped
        exact ⟨watched.allowed, nofun, nofun, nofun⟩
  | timerFires =>
      simp only [HostHealthMonitor.step] at stepped
      split at stepped
      · obtain rfl := Option.some.inj stepped
        exact ⟨watched.allowed, fun lives =>
          ⟨(settled lives).1, (settled lives).2⟩, watched.counted,
          watched.asked⟩
      · contradiction
  | checkNow =>
      obtain rfl := Option.some.inj stepped
      exact ⟨watched.allowed, fun lives =>
        ⟨(settled lives).1, (settled lives).2⟩, watched.counted,
        watched.asked⟩
  | runCheck address =>
      simp only [HostHealthMonitor.step] at stepped
      split at stepped
      · next caller rest idle waiting =>
        have resting : monitor.clearing = false := by
          unfold clearing
          rw [idle]
        have counted := fun lives => watched.counted lives resting
        have quiet : ∀ caller : CheckCaller,
            (HostHealthMonitor.ends { monitor with queued := rest }
              caller).Watched counts spaces options := by
          intro caller
          apply Watched.ends
          · exact watched.allowed
          · exact fun lives => ⟨(settled lives).1, (settled lives).2⟩
          · exact counted
        split at stepped
        · exact Option.some.inj stepped ▸ quiet caller
        · cases address with
          | none => exact Option.some.inj stepped ▸ quiet caller
          | some address =>
              obtain rfl := Option.some.inj stepped
              exact ⟨watched.allowed, fun lives =>
                ⟨(settled lives).1, (settled lives).2⟩,
                fun lives _ => counted lives, fun _ _ waits => nomatch waits⟩
      · contradiction
  | hostProbed result now =>
      simp only [HostHealthMonitor.step] at stepped
      split at stepped
      · next waits =>
        split at stepped
        · contradiction
        · exact Option.some.inj stepped ▸
            watched.hostProbed waits kept
      · contradiction
  | containerProbed result now =>
      simp only [HostHealthMonitor.step] at stepped
      split at stepped
      · next waits =>
        split at stepped
        · contradiction
        · exact Option.some.inj stepped ▸
            watched.containerProbed waits punctual
      · contradiction
  | restarted result =>
      simp only [HostHealthMonitor.step] at stepped
      split at stepped
      · next waits => exact Option.some.inj stepped ▸ watched.restarted waits
      · contradiction
  | reprobed result =>
      simp only [HostHealthMonitor.step] at stepped
      split at stepped
      · next waits => exact Option.some.inj stepped ▸ watched.reprobed waits
      · contradiction
  | restored result =>
      simp only [HostHealthMonitor.step] at stepped
      split at stepped
      · exact Option.some.inj stepped ▸ watched.restored kept
      · exact Option.some.inj stepped ▸ watched.restored kept
      · contradiction

end Steps

end HostHealthMonitor

/-! ## Runs -/

theorem HostHealthMonitor.watched_of_run (counts spaces : Prop)
    {options : HostHealthMonitorOptions}
    {start finish : HostHealthMonitor} {labels : List MonitorLabel}
    (begins : (monitorMachine options).initial start)
    (run : (monitorMachine options).exec start labels = some finish)
    (kept : (monitorMachine options).AllSteps (fun monitor label =>
      (counts → monitor.keepsCount label = true) ∧
        (spaces → monitor.punctual options label = true)) start labels) :
    finish.Watched counts spaces options := by
  obtain ⟨address, now, rfl⟩ := begins
  apply Machine.exec_preserves_of_allSteps _ run kept
  · exact HostHealthMonitor.watched_created address now
  · intro monitor label next holds met stepped
    exact holds.step met.1 met.2 stepped

/-- While no healthy probe is left without effect on a count, every restart
follows as many failed regular probes as the threshold asks for, without a
healthy probe between them.  While the deadline of a recovery is the one of its
restart, every restart keeps the cooldown from every earlier restart which no
healthy or recovered state has cleared. -/
theorem restarts_allowed_of_unhindered {options : HostHealthMonitorOptions}
    {start finish : HostHealthMonitor} {labels : List MonitorLabel}
    (begins : (monitorMachine options).initial start)
    (run : (monitorMachine options).exec start labels = some finish) :
    ((monitorMachine options).AllSteps (fun monitor label =>
        monitor.keepsCount label = true) start labels →
      RestartsCounted options finish.log) ∧
    ((monitorMachine options).AllSteps (fun monitor label =>
        monitor.punctual options label = true) start labels →
      RestartsSpaced options finish.log) := by
  constructor
  · intro kept later earlier now restarted
    have watched := HostHealthMonitor.watched_of_run True False begins run
      (kept.mono fun _ _ holds => ⟨fun _ => holds, False.elim⟩)
    exact (watched.allowed later earlier now restarted).failures trivial
  · intro punctual later earlier now restarted
    have watched := HostHealthMonitor.watched_of_run False True begins run
      (punctual.mono fun _ _ holds => ⟨False.elim, fun _ => holds⟩)
    exact (watched.allowed later earlier now restarted).cooldown trivial

def sampleOptions : HostHealthMonitorOptions where
  failureThreshold := 3
  recoveryCooldownMs := 300
  restoreInitially := false
  threshold := by decide
  cooldown := by decide

/-- A check of the host with the answer of the probe. -/
def sampleCheck (healthy : Bool) (configured : Option Bool) (now : Int) :
    List MonitorLabel :=
  [.checkNow, .runCheck (some "127.0.0.1:8080"),
    .hostProbed (.ok ⟨healthy, configured⟩) now]

def sampleMonitor : HostHealthMonitor :=
  HostHealthMonitor.created sampleOptions none 0

/-- Three failures, and a restart after which the host is reached again. -/
def sampleRecovery : List MonitorLabel :=
  sampleCheck false none 30 ++ sampleCheck false none 60 ++
    sampleCheck false none 90 ++
      [.containerProbed (.ok true) 90, .restarted (.ok (some "127.0.0.1:9")),
        .reprobed (.ok ⟨true, some true⟩), .restored (.ok ())]

theorem restart_allowed_of_sampleRecovery :
    ∃ finish, (monitorMachine sampleOptions).exec sampleMonitor
        sampleRecovery = some finish ∧
      .restart 90 ∈ finish.log ∧ RestartsCounted sampleOptions finish.log ∧
      RestartsSpaced sampleOptions finish.log := by
  have run : ((monitorMachine sampleOptions).exec sampleMonitor
      sampleRecovery).map (fun finish =>
        decide (.restart 90 ∈ finish.log)) = some true := by
    decide +kernel
  obtain ⟨finish, ran, called⟩ := Option.map_eq_some_iff.mp run
  obtain ⟨counted, spaced⟩ :=
    restarts_allowed_of_unhindered ⟨none, 0, rfl⟩ ran
  exact ⟨finish, ran, of_decide_eq_true called, counted (by decide +kernel),
    spaced (by decide +kernel)⟩

/-- A healthy probe between the failures whose restore fails. -/
def sampleRelapse : List MonitorLabel :=
  sampleCheck false none 30 ++ sampleCheck false none 60 ++
    sampleCheck true (some false) 90 ++ [.restored (.error "HTTP 503")] ++
      sampleCheck false none 400 ++ [.containerProbed (.ok true) 400]

/-- A healthcheck inside the container which takes its time, and a restart
which fails. -/
def sampleSlowHealthcheck : List MonitorLabel :=
  sampleCheck false none 30 ++ sampleCheck false none 60 ++
    sampleCheck false none 90 ++
      [.containerProbed (.ok true) 100, .restarted (.error "timeout")] ++
        sampleCheck false none 390

/-- One failed probe behind a healthy one is enough for a restart when the
restore of the healthy one has failed; and two restarts are closer to each other
than the cooldown when the first had to wait for the healthcheck inside the
container. -/
theorem restart_after_healthy_probe :
    (∃ finish, (monitorMachine sampleOptions).exec sampleMonitor
        sampleRelapse = some finish ∧
      ∃ earlier, finish.log =
          .restart 400 :: .onState .restarting :: earlier ∧
        failuresInARow earlier = 1) ∧
    (∃ finish, (monitorMachine sampleOptions).exec sampleMonitor
        sampleSlowHealthcheck = some finish ∧
      ∃ earlier, finish.log =
          .restart 390 :: .onState .restarting :: earlier ∧
        unclearedRestarts earlier = [100]) ∧
    ¬ ∀ options start finish labels,
      (monitorMachine options).initial start →
      (monitorMachine options).exec start labels = some finish →
        RestartsCounted options finish.log ∧
          RestartsSpaced options finish.log := by
  have relapse : ((monitorMachine sampleOptions).exec sampleMonitor
      sampleRelapse).map (fun finish => (finish.log.take 2,
        failuresInARow (finish.log.drop 2))) =
          some ([.restart 400, .onState .restarting], 1) := by
    decide +kernel
  have slow : ((monitorMachine sampleOptions).exec sampleMonitor
      sampleSlowHealthcheck).map (fun finish => (finish.log.take 2,
        unclearedRestarts (finish.log.drop 2))) =
          some ([.restart 390, .onState .restarting], [100]) := by
    decide +kernel
  obtain ⟨finish, ran, seen⟩ := Option.map_eq_some_iff.mp relapse
  obtain ⟨newest, failures⟩ := Prod.mk.inj seen
  obtain ⟨later, ranLater, seenLater⟩ := Option.map_eq_some_iff.mp slow
  obtain ⟨newestLater, restarts⟩ := Prod.mk.inj seenLater
  have split : finish.log =
      .restart 400 :: .onState .restarting :: finish.log.drop 2 := by
    have parts := List.take_append_drop 2 finish.log
    rw [newest] at parts
    exact parts.symm
  have splitLater : later.log =
      .restart 390 :: .onState .restarting :: later.log.drop 2 := by
    have parts := List.take_append_drop 2 later.log
    rw [newestLater] at parts
    exact parts.symm
  refine ⟨⟨finish, ran, _, split, failures⟩,
    ⟨later, ranLater, _, splitLater, restarts⟩, fun claim => ?_⟩
  have counted := (claim sampleOptions sampleMonitor finish sampleRelapse
    ⟨none, 0, rfl⟩ ran).1 [] _ 400 split
  have enough : 3 ≤ failuresInARow (finish.log.drop 2) := counted
  omega

end ChartLocker.Plugin
