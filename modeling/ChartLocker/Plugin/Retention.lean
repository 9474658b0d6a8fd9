import ChartLocker.Config.Rehydration
import ChartLocker.Plugin.RegionsReload
import Mathlib.Data.Rat.Floor

/-!
# The retention queue

The plugin stores the scroll retention in whole days and pushes it to the
container in seconds, either alone or inside a configuration.  The pushes run
one at a time and read the store when they run.  The container is the service
of `Config`, which here keeps running: its requests come from the plugin, and
an answer which the plugin does not await any more changes nothing.
-/

namespace ChartLocker.Plugin

open Library Config

open Regions (ttlDays normalizeTtlDays)

/-! ## The stored retention -/

def secondsPerDay : ℚ := 86400

/-- `Math.round` takes a half upwards. -/
def scrollTtlSecsFromDays (days : ℚ) : Int :=
  max 0 ⌊days * secondsPerDay + 1 / 2⌋

/-- A retention is stored as it has been accepted. -/
theorem normalizeTtlDays_ofRat {value : Option Ecma.Value} {days : ℚ}
    (accepted : ttlDays value = some days) :
    normalizeTtlDays (some (.ofRat days)) = days := by
  have stored : ttlDays (some (.ofRat days)) = some days :=
    Regions.repeats_integerBetween _ _ value days accepted
  unfold normalizeTtlDays
  rw [stored]
  rfl

/-- Every stored retention is one which the container takes. -/
theorem scrollTtlSecs_accepted (value : Option Ecma.Value) :
    0 ≤ scrollTtlSecsFromDays (normalizeTtlDays value) ∧
      scrollTtlSecsFromDays (normalizeTtlDays value) ≤ maxScrollTtlSecs := by
  obtain ⟨⟨-, bounded⟩, -⟩ :=
    Ecma.integerBetween_spec (Regions.ttlDays_normalize value)
  constructor
  · exact le_max_left _ _
  · have year : normalizeTtlDays value * secondsPerDay + 1 / 2 <
        (maxScrollTtlSecs + 1 : Int) := by
      have seconds : ((maxScrollTtlSecs + 1 : Int) : ℚ) = 31536001 := by
        norm_num [maxScrollTtlSecs]
      rw [seconds, secondsPerDay]
      linarith
    apply max_le
    · decide
    · exact Int.lt_add_one_iff.mp (Int.floor_lt.mpr year)

/-! ## The pushes -/

/-- The arguments of `buildSourcePayload` besides the retention, with the
sources of the registry. -/
structure PayloadArguments where
  sources : List Catalog.ChartSource
  capBytes : Int
  regionsBudgetBytes : Int
  positionWarmBudgetBytes : Int
  geocodingEnabled : Bool

/-- `PLUGIN_PUBLIC_BASE`. -/
def pluginPublicBase : String := "/plugins/signalk-chart-locker"

def buildSourcePayload (arguments : PayloadArguments) (scrollTtlSecs : Int) :
    ConfigBody where
  sources := arguments.sources
  publicBase := some pluginPublicBase
  capBytes := some arguments.capBytes
  regionsBudgetBytes := some arguments.regionsBudgetBytes
  positionWarmBudgetBytes := some arguments.positionWarmBudgetBytes
  scrollTtlSecs := some scrollTtlSecs
  geocodingEnabled := some arguments.geocodingEnabled

/-- A task of the queue. -/
inductive Push where
  | retention
  | config (arguments : PayloadArguments)

/-- A request of the plugin to the container. -/
inductive Request where
  | scrollTtl (ttlSecs : Int)
  | config (body : ConfigBody)

/-- `MAX_RETRIES` of `pushTilecacheConfig`. -/
def maxRetries : Nat := 3

/-- The route posts once; a configuration is posted again after an attempt
which failed for the moment. -/
def Push.attempts : Push → Nat
  | .retention => 1
  | .config _ => maxRetries

def Push.request (ttlSecs : Int) : Push → Request
  | .retention => .scrollTtl ttlSecs
  | .config arguments => .config (buildSourcePayload arguments ttlSecs)

/-- The retention which a request carries. -/
def Request.ttlSecs : Request → Option Int
  | .scrollTtl ttlSecs => some ttlSecs
  | .config body => body.scrollTtlSecs

@[simp] theorem Push.request_ttlSecs (push : Push) (ttlSecs : Int) :
    (push.request ttlSecs).ttlSecs = some ttlSecs := by
  cases push <;> rfl

/-- The task which holds the queue.  `applied` says that the container has
applied one of its requests. -/
structure RunningPush where
  push : Push
  ttlSecs : Int
  sent : Nat
  applied : Bool

/-! ## The system -/

variable (Document : Type)

structure RetentionState where
  /-- The member `cacheScrollTtlDays` of `regions.json`. -/
  cacheScrollTtlDays : Option Ecma.Value
  lastRead : Option Int
  waiting : List Push
  running : Option RunningPush
  /-- Whether the container applied the task which settled last. -/
  lastApplied : Option Bool
  wire : List Request
  container : AppState Document

inductive SaveOutcome where
  | badRequest
  | storageFailure
  | unavailable
  | queued
deriving DecidableEq, Repr

inductive RetentionLabel where
  | save (value : Option Ecma.Value) (writable address : Bool)
  | enqueue (arguments : PayloadArguments)
  | read (readable : Bool)
  | start (readable : Bool)
  | send
  | deliver (index id : Nat)
  | lose (index : Nat)
  | serve (label : Label Document)
  | settle

variable {Document}

namespace RetentionState

variable (state : RetentionState Document)

/-- The retention last stored, in seconds. -/
def storedTtlSecs : Int :=
  scrollTtlSecsFromDays (normalizeTtlDays state.cacheScrollTtlDays)

/-- `current` of the queue, over a store which can be read or cannot. -/
def current (readable : Bool) : Option (RetentionState Document × Int) :=
  if readable then
    some ({ state with lastRead := some state.storedTtlSecs },
      state.storedTtlSecs)
  else
    state.lastRead.map fun ttlSecs => (state, ttlSecs)

def enqueue (push : Push) : RetentionState Document :=
  { state with waiting := state.waiting ++ [push] }

/-- `POST /api/cache/config` up to the answer of its push.  There is no await
between the write, `saved` and the call of the queue. -/
def postCacheConfig (value : Option Ecma.Value) (writable address : Bool) :
    RetentionState Document × SaveOutcome :=
  match ttlDays value with
  | none => (state, .badRequest)
  | some days =>
      if writable then
        let saved :=
          { state with
            cacheScrollTtlDays := some (.ofRat days)
            lastRead := some (scrollTtlSecsFromDays days) }
        if address then (saved.enqueue .retention, .queued)
        else (saved, .unavailable)
      else
        (state, .storageFailure)

/-- A queued task begins once the queue is free.  Without a retention to hand
it, it fails before it sends anything. -/
def start (readable : Bool) : Option (RetentionState Document) :=
  match state.running, state.waiting with
  | none, push :: rest =>
      match state.current readable with
      | some (read, ttlSecs) =>
          some { read with
            waiting := rest
            running := some ⟨push, ttlSecs, 0, false⟩ }
      | none => some { state with waiting := rest, lastApplied := some false }
  | _, _ => none

def send : Option (RetentionState Document) :=
  match state.running with
  | some task =>
      if task.sent < task.push.attempts then
        some { state with
          running := some { task with sent := task.sent + 1 }
          wire := state.wire ++ [task.push.request task.ttlSecs] }
      else
        none
  | none => none

/-- The container has applied a request of the running task. -/
def noteApplied : RetentionState Document :=
  { state with
    running := state.running.map fun task => { task with applied := true } }

/-- A request arrives at the container. -/
def deliver (index id : Nat) : Option (RetentionState Document) :=
  match state.wire[index]? with
  | some (.scrollTtl ttlSecs) =>
      let answered :=
        { state with
          wire := state.wire.eraseIdx index
          container := setScrollTtl state.container ttlSecs }
      if 0 ≤ ttlSecs ∧ ttlSecs ≤ maxScrollTtlSecs then
        some answered.noteApplied
      else
        some answered
  | some (.config body) =>
      (configRequest state.container id body).map fun container =>
        { state with
          wire := state.wire.eraseIdx index
          container := container }
  | none => none

end RetentionState

/-- The steps which the container takes by itself. -/
def internal : Label Document → Bool
  | .configRequest _ _ | .scrollTtl _ | .boot _ => false
  | _ => true

def publishes : Label Document → Bool
  | .configPublish _ => true
  | _ => false

namespace RetentionState

variable (env : Environment Document) (state : RetentionState Document)

def serve (label : Label Document) : Option (RetentionState Document) :=
  if internal label then
    (step env state.container label).map fun container =>
      let served := { state with container := container }
      if publishes label then served.noteApplied else served
  else
    none

def settle : Option (RetentionState Document) :=
  state.running.map fun task =>
    { state with running := none, lastApplied := some task.applied }

def step : RetentionLabel Document → Option (RetentionState Document)
  | .save value writable address =>
      some (state.postCacheConfig value writable address).1
  | .enqueue arguments => some (state.enqueue (.config arguments))
  | .read readable => (state.current readable).map Prod.fst
  | .start readable => state.start readable
  | .send => state.send
  | .deliver index id => state.deliver index id
  | .lose index =>
      if index < state.wire.length then
        some { state with wire := state.wire.eraseIdx index }
      else
        none
  | .serve label => state.serve env label
  | .settle => state.settle

/-- No request of the queue is on its way or being handled. -/
def Quiet : Prop :=
  state.wire = [] ∧
    ∀ id body phase, state.container.tasks id ≠ some (.config body phase)

/-- A plugin which has pushed nothing yet. -/
def Fresh : Prop :=
  state.lastRead = none ∧ state.waiting = [] ∧ state.running = none ∧
    state.lastApplied = none ∧ state.Quiet

/-- A save is followed by its push, and a task settles after the container
has applied or refused what it sent. -/
def Orderly : RetentionLabel Document → Prop
  | .save value writable address =>
      (state.postCacheConfig value writable address).2 ≠ .unavailable
  | .settle => state.Quiet
  | _ => True

end RetentionState

def retentionMachine (env : Environment Document) :
    Machine (RetentionState Document) (RetentionLabel Document) where
  initial := RetentionState.Fresh
  step state label := state.step env label

end ChartLocker.Plugin
