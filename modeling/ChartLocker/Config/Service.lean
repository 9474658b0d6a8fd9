import ChartLocker.Config.State
import ChartLocker.Library.Machine

/-!
# Configuration pushes and style learning

One label is one stretch of a task between two of its await points, one
blocking job, one call of the cache by another party, the loss of a request
or a new boot of the process.  The schedule, the clock, the answers of the
upstream and the failures of SQL statements are in the labels.

A learn takes a single-flight lock before it fetches.  The lock only removes
interleavings, so that what holds of every run of this machine holds with it.
-/

namespace ChartLocker.Config

open Library Cache Catalog

variable {Document : Type}

namespace AppState

variable (state : AppState Document)

def setTask (id : Nat) (task : Option (Task Document)) : AppState Document :=
  { state with tasks := Function.update state.tasks id task }

def setJob (id : Nat) (job : Option (Job Document)) : AppState Document :=
  { state with jobs := Function.update state.jobs id job }

/-- The task returns, releasing `config_update` if it holds it. -/
def finish (id : Nat) : AppState Document :=
  { state.setTask id none with
    configUpdate :=
      if state.configUpdate = some id then none else state.configUpdate }

def toPhase (id : Nat) (body : ConfigBody) (phase : ConfigPhase Document) :
    AppState Document :=
  state.setTask id (some (.config body phase))

def toLearnPhase (id : Nat) (source : String) (generation : Nat)
    (phase : LearnPhase Document) : AppState Document :=
  state.setTask id (some (.learn source generation phase))

def spawn (id : Nat) (work : Work Document) : AppState Document :=
  state.setJob id (some (.pending work))

/-- `config_generation.fetch_add(1)`. -/
def increment : AppState Document :=
  { state with configGeneration := state.configGeneration + 1 }

/-- The entry of a source which the current catalog generation validated. -/
def currentStyle (source : String) (generation : Nat) :
    Option (StyleState Document) :=
  (state.styleState.lookup source).filter fun style =>
    decide (style.configGeneration = generation)

/-- `fresh_learned_document`. -/
def freshStyle (env : Environment Document) (source : String)
    (generation : Nat) (now : Int) : Option (StyleState Document) :=
  (state.currentStyle source generation).filter fun style =>
    decide (now - style.fetchedAt < env.freshSecs)

/-- The process starts over the durable part of the state. -/
def booted (env : Environment Document) (deferred : Bool) :
    AppState Document where
  cache := TileCache.opened deferred state.cache.tables
  learnedStyles := state.learnedStyles
  sources := KeyedTable.empty
  publicBase := ""
  styleState := KeyedTable.empty
  live :=
    { capBytes := env.capBytes
      regionsBudget := 0
      positionWarmBudget := 0
      scrollTtlSecs := env.scrollTtlSecs }
  geocodingEnabled := env.geocodingEnabled
  configured := false
  configPushes := 0
  configGeneration := 0
  configUpdate := none
  tasks := fun _ => none
  jobs := fun _ => none
  boot := state.boot + 1
  learned := state.learned

end AppState

/-! ## The configuration handler -/

section Handler

variable (env : Environment Document) (state : AppState Document) (id : Nat)

/-- `config` up to the enforcement of the cap. -/
def configBegin : Option (AppState Document) :=
  match state.tasks id, state.configUpdate with
  | some (.config body .waiting), none =>
      let knobs := body.knobs state.live
      match body.rejection env knobs with
      | some _ => some (state.finish id)
      | none =>
          let held := { state.increment with configUpdate := some id }
          some ((held.toPhase id body (.enforcing knobs.capBytes)).spawn id
            (.enforceCap knobs.capBytes))
  | _, _ => none

/-- Publish the catalog, and choose the generation for rehydrated styles. -/
def configSources : Option (AppState Document) :=
  match state.tasks id with
  | some (.config body .writingSources) =>
      let published := { state with sources := catalogOf body.sources }
      some (published.toPhase id body
        (.readingSources (published.configGeneration + 1)))
  | _ => none

/-- `rehydrate_style_state` up to the reconciliation. -/
def configReconcile : Option (AppState Document) :=
  match state.tasks id with
  | some (.config body (.readingSources published)) =>
      let catalog := state.sources.rows.filter ChartSource.isStyle
      let signatures := catalog.filterMap fun source =>
        (env.sourceSignature source).map fun signature =>
          (source.id, signature)
      some ((state.toPhase id body (.reconciling published catalog)).spawn id
        (.reconcile signatures))
  | _ => none

/-- A retained row is valid for the catalog which was read before. -/
def validRetained (catalog : List ChartSource)
    (row : StoredLearnedStyle Document) : Bool :=
  (catalog.find? fun source => decide (source.id = row.source)).any
    fun source => env.validPersisted row.state source env.allowPrivateEgress

/-- Go on with the result of a job. -/
def configResume : Option (AppState Document) :=
  match state.tasks id, state.jobs id with
  | some (.config body (.enforcing _)), some (.finished .applied) =>
      some ((state.setJob id none).toPhase id body .writingSources)
  | some (.config _ (.enforcing _)), some (.finished _) =>
      some (((state.setJob id none).increment).finish id)
  | some (.config body (.reconciling published catalog)),
      some (.finished (.retained rows)) =>
      let restored := (rows.filter (validRetained env catalog)).map fun row =>
        row.state.intoLive row.source published
      let invalid := (rows.filter fun row => !validRetained env catalog row).map
        StoredLearnedStyle.source
      if invalid.isEmpty then
        some ((state.setJob id none).toPhase id body (.installing restored))
      else
        some ((state.spawn id (.deleteInvalid invalid)).toPhase id body
          (.deletingInvalid restored))
  | some (.config body (.reconciling _ _)), some (.finished _) =>
      some ((state.setJob id none).toPhase id body (.installing []))
  | some (.config body (.deletingInvalid restored)), some (.finished _) =>
      some ((state.setJob id none).toPhase id body (.installing restored))
  | _, _ => none

def configInstall : Option (AppState Document) :=
  match state.tasks id with
  | some (.config body (.installing restored)) =>
      some ({ state with
        styleState := restored.foldl KeyedTable.insertOrReplace
          KeyedTable.empty }.toPhase id body .publishing)
  | _ => none

def configPublish : Option (AppState Document) :=
  match state.tasks id with
  | some (.config body .publishing) =>
      some ({ state.increment with
        publicBase := body.publicBase.getD state.publicBase
        live := body.knobs state.live
        geocodingEnabled := body.geocodingEnabled.getD state.geocodingEnabled
        configured := true
        configPushes := state.configPushes + 1 }.finish id)
  | _ => none

end Handler

/-! ## Blocking jobs -/

/-- The outcome of a job: its statements succeed, or one of them fails after
so many have succeeded. -/
inductive Outcome where
  | ok
  | failed (succeeded : Nat)
deriving DecidableEq, Repr

section Jobs

variable (env : Environment Document) (state : AppState Document)

/-- `reconcile_learned_styles`. -/
def reconcileLearnedStyles (signatures : List (String × String)) :
    List (StoredLearnedStyle Document) :=
  signatures.filterMap fun entry =>
    (state.learnedStyles.lookup entry.1).filter fun row =>
      decide (row.sourceSignature = entry.2) &&
        decide (env.encodedLength row.state ≤ maxPersistedStyleBytes)

def deleteLearnedStyles (sources : List String) : AppState Document :=
  { state with
    learnedStyles := state.learnedStyles.deleteWhere fun row =>
      decide (row.source ∈ sources) }

/-- The effect and the result of a job. -/
def perform : Work Document → Outcome →
    AppState Document × JobResult Document
  | .enforceCap cap, outcome =>
      if state.cache.pinnedBytes > cap then
        (state, match outcome with
          | .ok => .irreducible state.cache.pinnedBytes
          | .failed _ => .failed)
      else
        let evicted := { state with cache := state.cache.evictTo cap }
        match outcome with
        | .ok => (evicted, .applied)
        | .failed 0 => (state, .failed)
        | .failed _ => (evicted, .failed)
  | .reconcile signatures, .ok =>
      let rows := reconcileLearnedStyles env state signatures
      ({ state with
        learnedStyles := rows.foldl KeyedTable.insertOrReplace
          KeyedTable.empty }, .retained rows)
  | .reconcile _, .failed _ => (state, .failed)
  | .deleteInvalid sources, .ok =>
      (deleteLearnedStyles state sources, .applied)
  | .deleteInvalid sources, .failed succeeded =>
      (deleteLearnedStyles state (sources.take succeeded), .failed)
  | .store row, .ok =>
      ({ state with
        learnedStyles := state.learnedStyles.insertOrReplace row }, .applied)
  | .store _, .failed _ => (state, .failed)

def runJob (id : Nat) (outcome : Outcome) : Option (AppState Document) :=
  match state.jobs id with
  | some (.pending work) =>
      let performed := perform env state work outcome
      some (performed.1.setJob id (some (.finished performed.2)))
  | _ => none

end Jobs

/-! ## Learning a style -/

section Learn

variable (env : Environment Document) (state : AppState Document) (id : Nat)

/-- `fetch_and_learn`: a request which finds a fresh entry, or an odd
generation, is answered without a learn. -/
def learnRequest (source : String) (now : Int) :
    Option (AppState Document) :=
  if state.configGeneration % 2 = 0 ∧
      (state.freshStyle env source state.configGeneration now).isNone ∧
      (state.tasks id).isNone ∧ (state.jobs id).isNone then
    some (state.toLearnPhase id source state.configGeneration .resolving)
  else
    none

def learnResolve : Option (AppState Document) :=
  match state.tasks id with
  | some (.learn source generation .resolving) =>
      match state.sources.lookup source with
      | some definition =>
          match definition.upstream with
          | .style styleUrl allowedHosts =>
              if env.styleUrlAllowed styleUrl allowedHosts
                  env.allowPrivateEgress then
                some (state.toLearnPhase id source generation
                  (.reading definition))
              else
                some (state.finish id)
          | _ => some (state.finish id)
      | none => some (state.finish id)
  | _ => none

def learnExisting : Option (AppState Document) :=
  match state.tasks id with
  | some (.learn source generation (.reading definition)) =>
      some (state.toLearnPhase id source generation
        (.fetching definition (state.currentStyle source generation)))
  | _ => none

def allowedHosts (source : ChartSource) : List String :=
  match source.upstream with
  | .style _ hosts => hosts
  | _ => []

def learnAnswer (answer : StyleAnswer Document) :
    Option (AppState Document) :=
  match state.tasks id with
  | some (.learn source generation (.fetching definition current)) =>
      match answer with
      | .failed => some (state.finish id)
      | .notModified =>
          some (state.toLearnPhase id source generation
            (.refreshing definition))
      | .document style tilejson validator =>
          match env.learnContent (allowedHosts definition) style tilejson with
          | some content =>
              some (state.toLearnPhase id source generation
                (.committing definition current content validator))
          | none => some (state.finish id)
  | _ => none

/-- Insert an entry into the map and go on to persist it, still under
`config_update`. -/
def installStyle (style : StyleState Document) (generation : Nat)
    (definition : ChartSource) (renewed : Bool) : AppState Document :=
  let installed : AppState Document :=
    { state with
      styleState := state.styleState.insertOrReplace style
      configUpdate := some id
      learned := state.learned ++
        [{ boot := state.boot
           source := style.source
           signature := env.sourceSignature definition
           generation := style.generation
           renewed := renewed }] }
  installed.toLearnPhase id style.source generation (.persisting style)

def learnCommit (now : Int) : Option (AppState Document) :=
  match state.tasks id, state.configUpdate with
  | some (.learn source generation (.refreshing definition)), none =>
      if state.configGeneration = generation then
        match state.currentStyle source generation with
        | some existing =>
            some (installStyle env state id
              { existing with source := source, fetchedAt := now }
              generation definition false)
        | none => some (state.finish id)
      else
        some (state.finish id)
  | some (.learn source generation
      (.committing definition current content validator)), none =>
      if state.configGeneration = generation then
        if (state.styleState.lookup source).isNone ∧
            maxLearnedStyleEntries ≤ state.styleState.rows.length then
          some (state.finish id)
        else
          some (installStyle env state id
            { source := source
              content := content
              configGeneration := generation
              generation := current.elim generation StyleState.generation
              fetchedAt := now
              upstreamValidator := validator }
            generation definition current.isNone)
      else
        some (state.finish id)
  | _, _ => none

/-- `persist_style_state` up to its blocking job. -/
def learnPersist : Option (AppState Document) :=
  match state.tasks id with
  | some (.learn source generation (.persisting style)) =>
      match (state.sources.lookup source).bind env.sourceSignature with
      | some signature =>
          let persisted := PersistedStyleState.fromLive style
          if env.encodedLength persisted ≤ maxPersistedStyleBytes then
            some ((state.toLearnPhase id source generation .storing).spawn id
              (.store
                { source := source
                  sourceSignature := signature
                  state := persisted
                  fetchedAt := style.fetchedAt }))
          else
            some (state.finish id)
      | none => some (state.finish id)
  | _ => none

def learnFinish : Option (AppState Document) :=
  match state.tasks id, state.jobs id with
  | some (.learn _ _ .storing), some (.finished _) =>
      some ((state.setJob id none).finish id)
  | _, _ => none

end Learn

/-! ## The machine -/

variable (Document)

inductive Label where
  | configRequest (id : Nat) (body : ConfigBody)
  | configBegin (id : Nat)
  | configSources (id : Nat)
  | configReconcile (id : Nat)
  | configResume (id : Nat)
  | configInstall (id : Nat)
  | configPublish (id : Nat)
  | runJob (id : Nat) (outcome : Outcome)
  | learnRequest (id : Nat) (source : String) (now : Int)
  | learnResolve (id : Nat)
  | learnExisting (id : Nat)
  | learnAnswer (id : Nat) (answer : StyleAnswer Document)
  | learnCommit (id : Nat) (now : Int)
  | learnPersist (id : Nat)
  | learnFinish (id : Nat)
  | lockHolder (id : Nat)
  | unlockHolder (id : Nat)
  | scrollTtl (ttl : Int)
  | cacheCall (op : CacheOp)
  | drop (id : Nat)
  | boot (deferred : Bool)

variable {Document} (env : Environment Document)

def configRequest (state : AppState Document) (id : Nat) (body : ConfigBody) :
    Option (AppState Document) :=
  if (state.tasks id).isNone ∧ (state.jobs id).isNone then
    some (state.toPhase id body .waiting)
  else
    none

/-- Another holder of `config_update`, such as `start_warm`. -/
def lockHolder (state : AppState Document) (id : Nat) :
    Option (AppState Document) :=
  if (state.tasks id).isNone ∧ (state.jobs id).isNone ∧
      state.configUpdate.isNone then
    some ({ state with configUpdate := some id }.setTask id (some .holder))
  else
    none

def unlockHolder (state : AppState Document) (id : Nat) :
    Option (AppState Document) :=
  match state.tasks id with
  | some .holder => some (state.finish id)
  | _ => none

/-- `set_scroll_ttl`. -/
def setScrollTtl (state : AppState Document) (ttl : Int) : AppState Document :=
  if 0 ≤ ttl ∧ ttl ≤ maxScrollTtlSecs then
    { state with live := { state.live with scrollTtlSecs := ttl } }
  else
    state

/-- The server drops the future of a request. -/
def dropTask (state : AppState Document) (id : Nat) :
    Option (AppState Document) :=
  if (state.tasks id).isSome then some (state.finish id) else none

def step (state : AppState Document) :
    Label Document → Option (AppState Document)
  | .configRequest id body => configRequest state id body
  | .configBegin id => configBegin env state id
  | .configSources id => configSources state id
  | .configReconcile id => configReconcile env state id
  | .configResume id => configResume env state id
  | .configInstall id => configInstall state id
  | .configPublish id => configPublish state id
  | .runJob id outcome => runJob env state id outcome
  | .learnRequest id source now => learnRequest env state id source now
  | .learnResolve id => learnResolve env state id
  | .learnExisting id => learnExisting state id
  | .learnAnswer id answer => learnAnswer env state id answer
  | .learnCommit id now => learnCommit env state id now
  | .learnPersist id => learnPersist env state id
  | .learnFinish id => learnFinish state id
  | .lockHolder id => lockHolder state id
  | .unlockHolder id => unlockHolder state id
  | .scrollTtl ttl => some (setScrollTtl state ttl)
  | .cacheCall op => some { state with cache := op.apply state.cache }
  | .drop id => dropTask state id
  | .boot deferred => some (state.booted env deferred)

/-- The first process over a database without tiles and styles. -/
def firstBoot (env : Environment Document) : AppState Document :=
  AppState.booted
    { cache := TileCache.opened false Tables.empty
      learnedStyles := KeyedTable.empty
      sources := KeyedTable.empty
      publicBase := ""
      styleState := KeyedTable.empty
      live := ⟨0, 0, 0, 0⟩
      geocodingEnabled := false
      configured := false
      configPushes := 0
      configGeneration := 0
      configUpdate := none
      tasks := fun _ => none
      jobs := fun _ => none
      boot := 0
      learned := [] }
    env false

def configMachine : Machine (AppState Document) (Label Document) where
  initial state := state = firstBoot env
  step := step env

end ChartLocker.Config
