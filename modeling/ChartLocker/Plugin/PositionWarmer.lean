import ChartLocker.Library.Machine
import ChartLocker.Library.Spacing
import ChartLocker.Plugin.RegionsStore
import ChartLocker.Warm.Snapshots

/-!
# The position warmer

On a fix of the vessel outside the saved regions the warmer starts a warm of a
small box around it, through a client which posts the warm once and polls its
job.  The warmer waits out an interval behind a warm which the container has
finished without errors, and a backoff behind any other one.

Instants are those of the monotonic clock, in nanoseconds.  The fixes, the
stored settings, the container and the clock are in the labels; what is
computed in floating point is in the environment.
-/

namespace ChartLocker.Plugin.PositionWarm

open Library Regions Ecma
open Spacing (second)

def zoomSpread : ℚ := 1

def backoffSecs : Nat := 600

def minWarmIntervalSecs : ℚ := 60

def maxWarmZoom : ℚ := 24

def pollAttempts : Nat := 20

def pollInterval : Nat := second / 2

def maxRetries : Nat := 3

def retryDelay : Nat := second

/-! ## Positions -/

/-- The value of `navigation.position`: its members, where they are finite
numbers. -/
structure Fix where
  latitude : Option ℚ
  longitude : Option ℚ
deriving DecidableEq, Repr

/-- A position which `isValidPosition` has accepted. -/
structure Position where
  latitude : ℚ
  longitude : ℚ
  valid : -90 ≤ latitude ∧ latitude ≤ 90 ∧ -180 ≤ longitude ∧ longitude ≤ 180
deriving DecidableEq, Repr

def Fix.position (fix : Fix) : Option Position :=
  match fix.latitude, fix.longitude with
  | some latitude, some longitude =>
      if valid : -90 ≤ latitude ∧ latitude ≤ 90 ∧ -180 ≤ longitude ∧
          longitude ≤ 180 then
        some ⟨latitude, longitude, valid⟩
      else
        none
  | _, _ => none

def insideBox (pos : Position) (bbox : RegionBbox) : Bool :=
  let longitudeInside :=
    if bbox.west ≤ bbox.east then
      decide (bbox.west ≤ pos.longitude) && decide (pos.longitude ≤ bbox.east)
    else
      decide (bbox.west ≤ pos.longitude) || decide (pos.longitude ≤ bbox.east)
  longitudeInside && decide (bbox.south ≤ pos.latitude) &&
    decide (pos.latitude ≤ bbox.north)

/-- Whether a region which is complete or under way has the position. -/
def insideAnyRegion (pos : Position)
    (regions : List Regions.SavedRegion) : Bool :=
  regions.any fun region =>
    (region.status == .ready || region.status == .downloading) &&
      insideBox pos region.bbox

structure Environment where
  /-- `haversineMeters`. -/
  distance : Position → Position → ℚ
  /-- `bboxesAround`. -/
  boxes : Position → ℚ → RegionBbox × Option RegionBbox
  /-- The saved sources which a warm of the catalog stores. -/
  selectWarmable : List Text → List Text

/-! ## The decision -/

structure WarmTrigger where
  lastPos : Option Position
  lastWarm : Nat
  backoffUntil : Nat
deriving DecidableEq, Repr

/-- The interval of the settings above its floor, in nanoseconds. -/
def interval (settings : PositionWarmSettings) : ℚ :=
  max minWarmIntervalSecs settings.intervalSecs * second

def shouldWarm (env : Environment) (pos : Position)
    (regions : List Regions.SavedRegion) (settings : PositionWarmSettings)
    (trigger : WarmTrigger) (now : Nat) : Bool :=
  settings.enabled && !insideAnyRegion pos regions &&
    !decide (now < trigger.backoffUntil) &&
    match trigger.lastPos with
    | none => true
    | some last =>
        !decide ((now : ℚ) - trigger.lastWarm < interval settings) &&
          !decide (env.distance pos last < settings.moveThresholdMeters)

/-- The body of `POST /warm`, whose region is the reserved one. -/
structure WarmRequest where
  bbox : RegionBbox
  additionalBbox : Option RegionBbox
  sources : List Text
  minzoom : ℚ
  maxzoom : ℚ
deriving DecidableEq, Repr

def requestFor (env : Environment) (pos : Position)
    (settings : PositionWarmSettings) : WarmRequest where
  bbox := (env.boxes pos settings.radiusMeters).1
  additionalBbox := (env.boxes pos settings.radiusMeters).2
  sources := env.selectWarmable settings.sources
  minzoom := max 0 (settings.baseZoom - zoomSpread)
  maxzoom := min maxWarmZoom (settings.baseZoom + zoomSpread)

/-! ## The client -/

structure WarmResult where
  state : Warm.WarmState
  errors : Nat
  total : Nat
deriving DecidableEq, Repr

/-- What the container answers, with the body which the bounded reader has
parsed. -/
structure Answer where
  status : Nat
  body : Option Json

def Answer.ok (answer : Answer) : Bool :=
  decide (200 ≤ answer.status ∧ answer.status < 300)

/-- The job of an accepted warm. -/
def acceptedJob (answer : Answer) : Option String :=
  if answer.ok then
    answer.body.bind fun body =>
      if Warm.validWarmJobId (body.get "jobId") then
        (body.get "jobId").bind fun job =>
          match job with
          | .string job => some job
          | _ => none
      else
        none
  else
    none

def warmState (text : String) : Option Warm.WarmState :=
  [Warm.WarmState.running, .done, .cancelled, .capped, .error].find?
    fun state => state.text == text

/-- The value to which `isWarmSnapshot` narrows a body. -/
def readSnapshot (body : Json) : Option WarmResult :=
  if Warm.isWarmSnapshot body then
    match body.get "state", Warm.nonnegativeSafeInteger (body.get "errors"),
      Warm.nonnegativeSafeInteger (body.get "total") with
    | some (.string state), some errors, some total =>
        (warmState state).map fun state => ⟨state, errors, total⟩
    | _, _, _ => none
  else
    none

/-- Where `warmRegion` awaits. -/
inductive Call where
  /-- No address: the caller returns `null`. -/
  | unconfigured
  | posting
  | polling (jobId : String) (poll attempt : Nat)
  | retrying (jobId : String) (poll attempt wakes : Nat)
  | resting (jobId : String) (poll wakes : Nat)
deriving DecidableEq, Repr

/-! ## The warmer -/

/-- A warm which was started. -/
structure Warm where
  id : Nat
  pos : Position
  startedAt : Nat
  settings : PositionWarmSettings
  regions : List Regions.SavedRegion
  request : WarmRequest
  /-- The trigger at its start. -/
  trigger : WarmTrigger
deriving DecidableEq, Repr

structure Active where
  warm : Warm
  call : Call
deriving DecidableEq, Repr

inductive Request where
  | post (warm : Nat)
  | get (warm : Nat) (jobId : String)
deriving DecidableEq, Repr

structure Outcome where
  warm : Warm
  endedAt : Nat
  result : Option WarmResult
deriving DecidableEq, Repr

/-- `done` without errors. -/
def Outcome.succeeded (outcome : Outcome) : Bool :=
  outcome.result.any fun result => result.state == .done && result.errors == 0

/-- The warmer with what it has done, newest first. -/
structure PositionWarmer where
  clock : Nat
  trigger : WarmTrigger
  stopped : Bool
  active : Option Active
  warms : List Warm
  requests : List Request
  accepted : List (Nat × String)
  /-- The warms which ended before the warmer was stopped. -/
  outcomes : List Outcome

inductive Label where
  /-- A fix, with the store (or the failure to read it) and whether the
  container has an address. -/
  | onPosition (now : Nat) (fix : Fix) (store : Option RegionsStore)
      (configured : Bool)
  /-- The response of the container, or the failure of the request. -/
  | answer (now : Nat) (answer : Option Answer)
  | wake (now : Nat)
  | stop (now : Nat)

namespace PositionWarmer

variable (env : Environment) (warmer : PositionWarmer)

/-- The clock does not run backwards. -/
def atInstant (now : Nat) : Option PositionWarmer :=
  if warmer.clock ≤ now then some { warmer with clock := now } else none

def backOff : PositionWarmer :=
  { warmer with
    trigger := { warmer.trigger with
      backoffUntil := warmer.clock + backoffSecs * second } }

/-- The continuation behind the client. -/
def finish (warm : Warm) (result : Option WarmResult) : PositionWarmer :=
  let idle := { warmer with active := none }
  if warmer.stopped then
    idle
  else
    let ended := { idle with
      outcomes := ⟨warm, warmer.clock, result⟩ :: warmer.outcomes }
    match result with
    | some found =>
        if found.state ≠ .done ∨ found.errors > 0 then
          ended.backOff
        else
          { ended with trigger := { ended.trigger with
              lastPos := some warm.pos
              lastWarm := warm.startedAt } }
    | none => ended.backOff

def setCall (warm : Warm) (call : Call) : PositionWarmer :=
  { warmer with active := some ⟨warm, call⟩ }

/-- An attempt of `fetchWithRetry`, which an abort forestalls. -/
def fetchStatus (warm : Warm) (jobId : String) (poll attempt : Nat) :
    PositionWarmer :=
  if warmer.stopped then
    warmer.finish warm none
  else
    { warmer.setCall warm (.polling jobId poll attempt) with
      requests := .get warm.id jobId :: warmer.requests }

/-- An attempt has failed, with a transport error or on the side of the
container. -/
def retry (warm : Warm) (jobId : String) (poll attempt : Nat) :
    PositionWarmer :=
  if warmer.stopped = false ∧ attempt + 1 < maxRetries then
    warmer.setCall warm (.retrying jobId poll (attempt + 1)
      (warmer.clock + retryDelay * (attempt + 1)))
  else
    warmer.finish warm none

def readStart (warm : Warm) (answer : Option Answer) : PositionWarmer :=
  match answer.bind acceptedJob with
  | some jobId =>
      { warmer with
        accepted := (warm.id, jobId) :: warmer.accepted }.fetchStatus warm
          jobId 0 0
  | none => warmer.finish warm none

def readStatus (warm : Warm) (jobId : String) (poll attempt : Nat)
    (answer : Option Answer) : PositionWarmer :=
  match answer with
  | none => warmer.retry warm jobId poll attempt
  | some answer =>
      if answer.status ≥ 500 then
        warmer.retry warm jobId poll attempt
      else if answer.status = 404 then
        warmer.finish warm none
      else
        match answer.body.bind readSnapshot with
        | none => warmer.finish warm none
        | some snapshot =>
            if snapshot.state ≠ .running then
              warmer.finish warm (some snapshot)
            else if warmer.stopped then
              warmer.finish warm none
            else
              warmer.setCall warm
                (.resting jobId poll (warmer.clock + pollInterval))

def start (pos : Position) (store : RegionsStore) (configured : Bool) :
    PositionWarmer :=
  let warm : Warm := ⟨warmer.warms.length, pos, warmer.clock,
    store.positionWarm, store.regions,
    requestFor env pos store.positionWarm, warmer.trigger⟩
  let begun := { warmer with warms := warm :: warmer.warms }
  if configured then
    { begun.setCall warm .posting with
      requests := .post warm.id :: warmer.requests }
  else
    begun.setCall warm .unconfigured

def onPosition (fix : Fix) (store : Option RegionsStore)
    (configured : Bool) : PositionWarmer :=
  if warmer.stopped || warmer.active.isSome then
    warmer
  else
    match fix.position with
    | none => warmer
    | some pos =>
        if warmer.clock < warmer.trigger.backoffUntil then
          warmer
        else
          match store with
          | none => warmer.backOff
          | some store =>
              if env.selectWarmable store.positionWarm.sources = [] then
                warmer
              else if shouldWarm env pos store.regions store.positionWarm
                  warmer.trigger warmer.clock then
                warmer.start env pos store configured
              else
                warmer

/-- What the response in the label is the answer to. -/
def receive (answer : Option Answer) : Option PositionWarmer :=
  warmer.active.bind fun active =>
    match active.call with
    | .unconfigured => some (warmer.finish active.warm none)
    | .posting => some (warmer.readStart active.warm answer)
    | .polling jobId poll attempt =>
        some (warmer.readStatus active.warm jobId poll attempt answer)
    | .retrying .. => none
    | .resting .. => none

/-- The end of a sleep, which an abort cuts short. -/
def wakeUp : Option PositionWarmer :=
  warmer.active.bind fun active =>
    match active.call with
    | .retrying jobId poll attempt wakes =>
        if warmer.stopped then
          some (warmer.finish active.warm none)
        else if wakes ≤ warmer.clock then
          some (warmer.fetchStatus active.warm jobId poll attempt)
        else
          none
    | .resting jobId poll wakes =>
        if warmer.stopped then
          some (warmer.finish active.warm none)
        else if wakes ≤ warmer.clock then
          if poll + 1 < pollAttempts then
            some (warmer.fetchStatus active.warm jobId (poll + 1) 0)
          else
            some (warmer.finish active.warm none)
        else
          none
    | _ => none

def step : Label → Option PositionWarmer
  | .onPosition now fix store configured =>
      (warmer.atInstant now).map fun present =>
        present.onPosition env fix store configured
  | .answer now answer =>
      (warmer.atInstant now).bind fun present => present.receive answer
  | .wake now =>
      (warmer.atInstant now).bind fun present => present.wakeUp
  | .stop now =>
      (warmer.atInstant now).map fun present =>
        { present with stopped := true }

end PositionWarmer

def createPositionWarmer (now : Nat) : PositionWarmer where
  clock := now
  trigger := ⟨none, 0, 0⟩
  stopped := false
  active := none
  warms := []
  requests := []
  accepted := []
  outcomes := []

def warmerMachine (env : Environment) : Machine PositionWarmer Label where
  initial warmer := ∃ now, warmer = createPositionWarmer now
  step warmer label := warmer.step env label

end ChartLocker.Plugin.PositionWarm
