import ChartLocker.Library.Machine
import ChartLocker.Plugin.RegionChanges
import ChartLocker.Warm.State

/-!
# The tracking of a saved region

`createRegionsRoutes` keeps the regions whose download is to be reconciled, and
the latest warm job of each.  The background sweep, the status route, the
redownload route and the delete route of a region work on these and on its
saved record, each with awaits of the container in between.

A warm job is known by the number of its acceptance: the ids of the jobs of one
container rise, and the jobs do not outlive it.  A step is what a handler does
from one await to the next, or what the container does on its own.
-/

namespace ChartLocker.Plugin

open Library

open Regions (SavedRegion RegionStatus RegionPatch DateNow reconcilePatch
  safeCount field)

/-! ## The jobs of a region -/

structure WarmSnapshot where
  state : Warm.WarmState
  errors : Nat
deriving DecidableEq, Repr

def statusFromSnapshot (snapshot : WarmSnapshot) : RegionStatus :=
  if snapshot.state = .done ∧ snapshot.errors = 0 then .ready
  else if snapshot.state = .capped then .capped
  else .error

/-- A job which the container retains. -/
structure RegionJob where
  number : Nat
  snapshot : WarmSnapshot
deriving DecidableEq, Repr

inductive JobLookup where
  | gone
  | unreachable
  | snapshot (job : Nat) (snapshot : WarmSnapshot)
deriving DecidableEq, Repr

/-! ## Handlers -/

inductive Observer where
  | sweep
  | poll
deriving DecidableEq, Repr

/-- Where a handler waits.  A question without a job is a lookup by region.
`since` is the newest job there was when the answer was settled: a job which
is asked for by its id was the newest when it was asked for. -/
inductive Handler where
  | idle
  | asking (who : Observer) (job : Option Nat) (since : Nat)
  | told (who : Observer) (job : Option Nat) (lookup : JobLookup)
      (since : Nat)
  | sizing (who : Observer) (job : Nat) (snapshot : WarmSnapshot)
      (region : SavedRegion) (since : Nat)
  | posting
  | posted (job : Option Nat)
  | deleting
deriving DecidableEq, Repr

/-- The handler of the background loop, of which there is one. -/
def background : Nat := 0

structure RegionRoutes where
  region : Option SavedRegion
  tracked : Bool
  regionJobs : Option Nat
  /-- The round of the background loop has yet to come to the region. -/
  listed : Bool
  handlers : Nat → Handler
  /-- The jobs which the container retains, the newest first. -/
  jobs : List RegionJob
  accepted : Nat
  /-- Warm requests which were given up and may still reach the container. -/
  abandoned : Nat
  /-- The newest job whose request is over or which a lookup has found. -/
  newest : Nat

/-- `heard` and `whole` tell that an answer arrives and can be read, `stored`
that the store can be read and written. -/
inductive RoutesLabel where
  | round
  | sweep
  | poll (call : Nat)
  | answer (call : Nat) (heard : Bool)
  | handle (call : Nat) (stored : Bool)
  | size (call : Nat) (response : Option Ecma.Value) (stored : Bool)
      (now : DateNow)
  | redownload (call : Nat)
  | post (call : Nat) (accepts : Bool)
  | respond (call : Nat) (whole stored : Bool)
  | delete (call : Nat)
  | deleted (call : Nat) (ok stored : Bool)
  | postAbandoned
  | report (snapshot : WarmSnapshot)
  | forget (job : Nat)
  | restart

namespace RegionRoutes

variable (state : RegionRoutes)

def status : Option RegionStatus :=
  state.region.map SavedRegion.status

def toPhase (call : Nat) (handler : Handler) : RegionRoutes :=
  { state with handlers := Function.update state.handlers call handler }

/-- A region which is not saved is not updated. -/
def persistRegionUpdate (patch : RegionPatch) : RegionRoutes :=
  { state with region := state.region.map fun region => region.apply patch }

def trackRegionJob (jobId : Option Nat) : RegionRoutes :=
  { state with
    regionJobs := jobId.or state.regionJobs
    tracked := true }

/-- `trackedRegions.delete` and `regionJobs.delete`. -/
def untrack : RegionRoutes :=
  { state with tracked := false, regionJobs := none }

/-! ## The container -/

def lookupJobByRegion : JobLookup :=
  match state.jobs.head? with
  | some job => .snapshot job.number job.snapshot
  | none => .gone

def getJobSnapshot (jobId : Nat) : JobLookup :=
  match state.jobs.find? fun job => job.number == jobId with
  | some job => .snapshot jobId job.snapshot
  | none => .gone

/-- `start_warm` refuses a region which is being warmed. -/
def accept : Option RegionRoutes :=
  if state.jobs.any fun job => job.snapshot.state == .running then
    none
  else
    some { state with
      jobs := ⟨state.accepted + 1, ⟨.running, 0⟩⟩ :: state.jobs
      accepted := state.accepted + 1 }

def answer (call : Nat) (heard : Bool) : Option RegionRoutes :=
  match state.handlers call with
  | .asking who job since =>
      if heard then
        match job with
        | none =>
            some (state.toPhase call
              (.told who none state.lookupJobByRegion state.accepted))
        | some jobId =>
            some (state.toPhase call
              (.told who job (state.getJobSnapshot jobId) since))
      else
        some (state.toPhase call (.told who job .unreachable since))
  | _ => none

def post (call : Nat) (accepts : Bool) : Option RegionRoutes :=
  match state.handlers call with
  | .posting =>
      if accepts then
        state.accept.map fun next =>
          next.toPhase call (.posted (some next.accepted))
      else
        some (state.toPhase call (.posted none))
  | _ => none

def postAbandoned : Option RegionRoutes :=
  if state.abandoned = 0 then none
  else
    state.accept.map fun next =>
      { next with
        abandoned := next.abandoned - 1
        newest := next.accepted }

/-- The job which runs goes on, or ends. -/
def report (snapshot : WarmSnapshot) : RegionRoutes :=
  { state with
    jobs := state.jobs.map fun job =>
      if job.snapshot.state = .running then { job with snapshot := snapshot }
      else job }

/-- `reap` drops a job which has ended. -/
def forget (number : Nat) : Option RegionRoutes :=
  if state.jobs.any fun job =>
      job.number == number && job.snapshot.state == .running then
    none
  else
    some { state with
      jobs := state.jobs.filter fun job => job.number != number }

/-! ## Reconciliation -/

/-- A region whose job is gone must not stay downloading. -/
def reconcileLostJob : RegionRoutes :=
  if state.status = some .downloading then
    state.persistRegionUpdate ⟨some .error, none, none⟩
  else state

/-- `regionJobs.set` with the job which a lookup by region has found. -/
def adopt (jobId : Nat) : RegionRoutes :=
  { state with
    regionJobs := some jobId
    newest := max state.newest jobId }

/-- After an authoritative `reconcile`. -/
def settle : Observer → RegionRoutes
  | .sweep => state.untrack
  | .poll => state

/-- The part of `reconcile` before its await. -/
def reconcile (call : Nat) (who : Observer) (job : Nat)
    (snapshot : WarmSnapshot) (since : Nat) : RegionRoutes :=
  match state.region with
  | some region =>
      state.toPhase call (.sizing who job snapshot region since)
  | none => (state.settle who).toPhase call .idle

/-- What `reconcileOne` and the status route do with an answer. -/
def handle (call : Nat) (stored : Bool) : Option RegionRoutes :=
  match state.handlers call with
  | .told _ _ .unreachable _ => some (state.toPhase call .idle)
  | .told .sweep none .gone _ =>
      if stored then
        some ({ state.reconcileLostJob with tracked := false
          : RegionRoutes }.toPhase call .idle)
      else some (state.toPhase call .idle)
  | .told .sweep (some _) .gone _ =>
      some ({ state with regionJobs := none : RegionRoutes }.toPhase call
        .idle)
  | .told .poll none .gone _ =>
      if stored then some (state.reconcileLostJob.toPhase call .idle)
      else some (state.toPhase call .idle)
  | .told .poll (some _) .gone _ =>
      some (state.toPhase call (.asking .poll none state.newest))
  | .told who (some _) (.snapshot job snapshot) since =>
      if snapshot.state = .running ∨ stored = false then
        some (state.toPhase call .idle)
      else
        some (state.reconcile call who job snapshot since)
  | .told who none (.snapshot job snapshot) since =>
      let adopted := state.adopt job
      if snapshot.state = .running then
        -- The sweep goes on with the job it has found.
        some (adopted.toPhase call (match who with
          | .sweep => .asking .sweep (some job) adopted.newest
          | .poll => .idle))
      else if stored then
        some (adopted.reconcile call who job snapshot since)
      else some (adopted.toPhase call .idle)
  | _ => none

/-- The part of `reconcile` after its await, and what follows it.  The patch
is made of the record which was read before, and applied to the one which is
saved now. -/
def size (call : Nat) (response : Option Ecma.Value) (stored : Bool)
    (now : DateNow) : Option RegionRoutes :=
  match state.handlers call with
  | .sizing who job snapshot read _ =>
      let patch := reconcilePatch read (statusFromSnapshot snapshot) response
        now
      if !stored && patch ≠ ⟨none, none, none⟩ then
        some (state.toPhase call .idle)
      else
        let written := state.persistRegionUpdate patch
        match safeCount (field response "bytes"), who with
        | some _, _ => some ((written.settle who).toPhase call .idle)
        | none, .sweep => some (written.toPhase call .idle)
        | none, .poll =>
            some ((written.trackRegionJob (some job)).toPhase call .idle)
  | _ => none

/-! ## Routes -/

/-- A redownload is taken for accepted. -/
def redownloading (jobId : Option Nat) (stored : Bool) : RegionRoutes :=
  let tracking := state.trackRegionJob jobId
  if stored then
    tracking.persistRegionUpdate ⟨some .downloading, none, none⟩
  else tracking

def respond (call : Nat) (whole stored : Bool) : Option RegionRoutes :=
  match state.handlers call with
  | .posting =>
      if whole then none
      else
        some ({ state.redownloading none stored with
          abandoned := state.abandoned + 1
          : RegionRoutes }.toPhase call .idle)
  | .posted none =>
      if whole then some (state.toPhase call .idle)
      else some ((state.redownloading none stored).toPhase call .idle)
  | .posted (some job) =>
      some ({ state.redownloading (if whole then some job else none) stored with
        newest := max state.newest job
        : RegionRoutes }.toPhase call .idle)
  | _ => none

def deleted (call : Nat) (ok stored : Bool) : Option RegionRoutes :=
  match state.handlers call with
  | .deleting =>
      if ok && stored then
        some ({ state.untrack with region := none
          : RegionRoutes }.toPhase call .idle)
      else some (state.toPhase call .idle)
  | _ => none

/-- A route is called, and finds the region saved. -/
def enter (call : Nat) (handler : Handler) : Option RegionRoutes :=
  if call ≠ background ∧ state.handlers call = .idle ∧
      state.region.isSome then
    some (state.toPhase call handler)
  else none

def step : RoutesLabel → Option RegionRoutes
  | .round =>
      if state.handlers background = .idle then
        some { state with listed := state.tracked }
      else none
  | .sweep =>
      if state.handlers background = .idle ∧ state.listed then
        some ({ state with listed := false : RegionRoutes }.toPhase background
          (.asking .sweep state.regionJobs state.newest))
      else none
  | .poll call =>
      state.enter call (.asking .poll state.regionJobs state.newest)
  | .answer call heard => state.answer call heard
  | .handle call stored => state.handle call stored
  | .size call response stored now => state.size call response stored now
  | .redownload call => state.enter call .posting
  | .post call accepts => state.post call accepts
  | .respond call whole stored => state.respond call whole stored
  | .delete call => state.enter call .deleting
  | .deleted call ok stored => state.deleted call ok stored
  | .postAbandoned => state.postAbandoned
  | .report snapshot => some (state.report snapshot)
  | .forget job => state.forget job
  | .restart => some { state with jobs := [] }

/-- The routes have been started, or have created the region: a download which
is not over is tracked, and nothing is under way. -/
structure Started : Prop where
  tracked : state.status = some .downloading → state.tracked = true
  regionJobs : state.regionJobs = none ∨
    state.regionJobs = some state.accepted
  handlers : ∀ call, state.handlers call = .idle
  retained : ∀ job ∈ state.jobs, job.number ≤ state.accepted
  latest : ∀ job ∈ state.jobs.head?, job.number = state.accepted
  abandoned : state.abandoned = 0
  newest : state.newest = state.accepted

end RegionRoutes

def routesMachine : Machine RegionRoutes RoutesLabel where
  initial := RegionRoutes.Started
  step := RegionRoutes.step

end ChartLocker.Plugin
