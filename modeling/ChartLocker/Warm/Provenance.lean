import ChartLocker.Warm.Carried
import ChartLocker.Warm.Promoted

/-!
# Where a stored row comes from

Nothing but the answers to fetches brings content into the cache.  Over a run
of the service, with its boots, configuration pushes, warms, live requests,
evictions and sweeps, a row which is stored under a key is a row of the first
database, or what one answer to a fetch of that very key was: the body, the
type, the validator and the digest are never those of two answers, and never
those of another key.
-/

namespace ChartLocker.Warm

open Library Cache Catalog

variable {Document : Type}

/-- A tile without its times. -/
def untimed (tile : CachedTile) : CachedTile :=
  { tile with fetchedAt := 0, lastAccess := 0 }

/-- At one step of a run a party which awaits the answer of a key gets it. -/
structure AnsweredIn (env : Environment Document) (start : Service Document)
    (labels : List (Label Document)) (worker : Worker)
    (response : Response) : Prop where
  step : ∃ before id now after state,
    labels = before ++ .work id (.answer response now) :: after ∧
      (serviceMachine env).exec start before = some state ∧
        state.workers id = some worker

/-- What a stored row goes back to. -/
inductive Origin (env : Environment Document) (start : Service Document)
    (labels : List (Label Document)) (key : TileKey) (tile : CachedTile) :
    Prop where
  /-- A row of the database at the start. -/
  | found (row : TileRow) (stored : row ∈ start.cache.tables.tiles.rows)
      (named : row.key = key) (same : untimed tile = untimed row.tile)
  /-- A body which the party that fetched the key has accepted. -/
  | body (worker : Worker) (response : Response)
      (answered : AnsweredIn env start labels worker response)
      (awaited : worker.awaits = some key)
      (ok : response.status = 200)
      (accepted : worker.accepts env response = true)
      (same : untimed tile = untimed (fetchedTile env response 0))
  /-- The upstream has no such tile. -/
  | missing (worker : Worker) (response : Response)
      (answered : AnsweredIn env start labels worker response)
      (awaited : worker.awaits = some key)
      (absent : response.status = 404 ∨ response.status = 204)
      (status : tile.status = 404 ∨ tile.status = 204)
      (same : untimed tile = untimed (CachedTile.negative tile.status 0))

variable {env : Environment Document} {start : Service Document}
  {labels : List (Label Document)}

theorem AnsweredIn.append {worker : Worker} {response : Response}
    (answered : AnsweredIn env start labels worker response)
    (more : List (Label Document)) :
    AnsweredIn env start (labels ++ more) worker response := by
  obtain ⟨before, id, now, after, state, rfl, reached, found⟩ := answered.step
  refine ⟨before, id, now, after ++ more, state, ?_, reached, found⟩
  rw [List.append_assoc, List.cons_append]

theorem AnsweredIn.last {state : Service Document} {id : Nat}
    {worker : Worker} {response : Response} {now : Int}
    (reached : (serviceMachine env).exec start labels = some state)
    (found : state.workers id = some worker) :
    AnsweredIn env start (labels ++ [.work id (.answer response now)]) worker
      response :=
  ⟨labels, id, now, [], state, rfl, reached, found⟩

theorem Origin.append {key : TileKey} {tile : CachedTile}
    (origin : Origin env start labels key tile)
    (more : List (Label Document)) :
    Origin env start (labels ++ more) key tile := by
  cases origin with
  | found row stored named same => exact .found row stored named same
  | body worker response answered awaited ok accepted same =>
      exact .body worker response (answered.append more) awaited ok accepted
        same
  | missing worker response answered awaited absent status same =>
      exact .missing worker response (answered.append more) awaited absent
        status same

/-- An origin is one of the content, not of the times. -/
theorem Origin.retimed {key : TileKey} {tile other : CachedTile}
    (origin : Origin env start labels key tile)
    (same : untimed other = untimed tile) :
    Origin env start labels key other := by
  have statuses : (untimed other).status = (untimed tile).status :=
    congrArg CachedTile.status same
  change other.status = tile.status at statuses
  cases origin with
  | found row stored named equal =>
      exact .found row stored named (same.trans equal)
  | body worker response answered awaited ok accepted equal =>
      exact .body worker response answered awaited ok accepted
        (same.trans equal)
  | missing worker response answered awaited absent status equal =>
      refine .missing worker response answered awaited absent ?_ ?_
      · rwa [statuses]
      · rw [statuses]
        exact same.trans equal

theorem made_origin : Made env (AnsweredIn env start labels)
    (Origin env start labels) where
  ageless _ _ _ origin := origin.retimed rfl
  fetched worker _ response _ answered awaited ok accepted :=
    .body worker response answered awaited ok accepted rfl
  negative worker _ response _ _ answered awaited absent given :=
    .missing worker response answered awaited absent given rfl
  renewed _ _ _ origin := origin.retimed rfl

/-! ## What is carried while the relation grows -/

section Growth

variable {good more : TileKey → CachedTile → Prop}
  (weaker : ∀ key tile, good key tile → more key tile)

include weaker

theorem Fetched.Carries.mono {fetched : Fetched}
    (carries : fetched.Carries good) : fetched.Carries more := by
  cases fetched with
  | tile row => exact weaker _ _ carries
  | negative row => exact weaker _ _ carries
  | _ => trivial

theorem Worker.Carries.mono {worker : Worker}
    (carries : worker.Carries good) : worker.Carries more := by
  cases worker with
  | tile task =>
      simp only [Worker.Carries] at carries ⊢
      cases phase : task.phase with
      | returning result =>
          rw [phase] at carries
          exact Fetched.Carries.mono weaker carries
      | finished result =>
          rw [phase] at carries
          cases result with
          | none => trivial
          | some fetched => exact Fetched.Carries.mono weaker carries
      | _ => trivial
  | asset task =>
      simp only [Worker.Carries] at carries ⊢
      cases phase : task.phase with
      | returning result =>
          rw [phase] at carries
          rcases result with reason | _ | row
          · trivial
          · trivial
          · exact weaker _ _ carries
      | finished result =>
          rw [phase] at carries
          rcases result with _ | reason | _ | row
          · trivial
          · trivial
          · trivial
          · exact weaker _ _ carries
      | _ => trivial
  | live fetch =>
      simp only [Worker.Carries] at carries ⊢
      cases phase : fetch.phase with
      | fetching stale =>
          rw [phase] at carries
          exact fun tile member => weaker _ _ (carries tile member)
      | storing tile now evict =>
          rw [phase] at carries
          exact weaker _ _ carries
      | _ => trivial
  | deletion pending => trivial
  | start pending => trivial

theorem AssetStage.Carries.mono {stage : AssetStage}
    (carries : stage.Carries good) : stage.Carries more := by
  refine ⟨fun row member => weaker _ _ (carries.1 row member), ?_⟩
  have rows := carries.2
  cases phase : stage.phase with
  | flushing pending cap resume =>
      rw [phase] at rows
      exact fun row member => weaker _ _ (rows row member)
  | _ => trivial

theorem WarmJob.Carries.mono {job : WarmJob} (carries : job.Carries good) :
    job.Carries more := by
  refine ⟨fun row member => weaker _ _ (carries.1 row member), ?_⟩
  have rest := carries.2
  cases phase : job.phase with
  | flushing pending budget cap resume =>
      rw [phase] at rest
      exact fun row member => weaker _ _ (rest row member)
  | assets stage =>
      rw [phase] at rest
      exact AssetStage.Carries.mono weaker rest
  | _ => trivial

theorem Service.Carries.mono {service : Service Document}
    (carries : service.Carries good) : service.Carries more where
  stored row member := weaker _ _ (carries.stored row member)
  workers id worker found := (carries.workers id worker found).mono weaker
  jobs order job found := (carries.jobs order job found).mono weaker

end Growth

/-- In every state of a run each stored row has an origin under its own key,
and so has every row which a party still carries. -/
theorem stored_rows_have_origins {finish : Service Document}
    (initial : (serviceMachine env).initial start)
    (run : (serviceMachine env).exec start labels = some finish) :
    finish.Carries (Origin env start labels) := by
  refine Machine.exec_history (motive := fun labels finish =>
    finish.Carries (Origin env start labels)) run ?_ ?_
  · obtain ⟨tables, deferred, bootId, _, _, _, rfl⟩ := initial
    refine ⟨fun row member => ?_, ?_, ?_⟩
    · exact .found row member rfl rfl
    · intro _ _ absent
      cases absent
    · intro _ _ absent
      cases absent
  · intro before label state next reached carries stepped
    have grown : state.Carries (Origin env start (before ++ [label])) :=
      carries.mono fun _ _ origin => origin.append [label]
    refine grown.step made_origin ?_ stepped
    intro id worker response now same found
    cases same
    exact .last reached found

/-- The rows of a chart and of a style. -/
theorem stored_rows_have_origins_harbourWarm :
    ∃ finish, (serviceMachine sampleDeployment).exec sampleService
        harbourWarm = some finish ∧
      finish.Carries (Origin sampleDeployment sampleService harbourWarm) ∧
      finish.cache.tables.tiles.rows.length = 2 := by
  have ran : ((serviceMachine sampleDeployment).exec sampleService
      harbourWarm).map (fun finish => finish.cache.tables.tiles.rows.length) =
        some 2 := by
    decide +kernel
  obtain ⟨finish, run, stored⟩ := Option.map_eq_some_iff.mp ran
  exact ⟨finish, run, stored_rows_have_origins sampleService_initial run,
    stored⟩

end ChartLocker.Warm
