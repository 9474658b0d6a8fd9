import ChartLocker.Warm.Inflight
import ChartLocker.Warm.Revalidation

/-!
# Requests under load

A request which is not answered from the cache at once needs a fill permit and
then the flight of its key.  Both are bounded and shared with every other
request, fill and warm task.  A run is an interleaving of the requests and
their fills with any steps of the single-flight table which other parties
take; the remaining reads of a request are arguments, as in `Exchange`.
-/

namespace ChartLocker.Warm

open Library Cache Catalog

variable {Document : Type}

/-- `MAX_FILL_TASKS`. -/
def maxFillTasks : Nat := 8

/-! ## The cache-first half of `get_tile` -/

/-- How `get_tile` goes on from the row which it has read. -/
inductive ServePath where
  /-- It answers. -/
  | inline
  /-- It answers with the stale row and revalidates it in the background. -/
  | background
  /-- `fill_and_await`. -/
  | awaited
deriving DecidableEq, Repr

namespace Exchange

variable (env : Environment Document) (maxStaleSecs : Int)

def servePath (exchange : Exchange) (key : TileKey) : ServePath :=
  match exchange.source with
  | none => .inline
  | some source =>
      if source.isStyle then
        .inline
      else if expandsUpstream source key = false then
        .inline
      else
        match exchange.cached with
        | some tile =>
            if tile.status ≠ 200 then
              if exchange.now - tile.fetchedAt < env.negativeTtlSecs then
                .inline
              else
                .awaited
            else if isSafeCached200 tile = false then
              .awaited
            else if exchange.now - tile.fetchedAt <
                source.freshSecs env.freshSecs then
              .inline
            else if exchange.slow ∧ exchange.now - tile.fetchedAt <
                source.maxStaleSecs maxStaleSecs then
              .background
            else
              .awaited
        | none => .awaited

/-- The stored row is a 200 which may be served when the request arrives: it
is inside its stale window, or pinned and not time-dynamic. -/
def mayBeServed (exchange : Exchange) (key : TileKey) : Bool :=
  match exchange.source, exchange.cached with
  | some source, some tile =>
      expandsUpstream source key && isSafeCached200 tile &&
        (decide (exchange.now - tile.fetchedAt <
            source.maxStaleSecs maxStaleSecs) ||
          (!source.isVolatile && exchange.pinned))
  | _, _ => false

/-- The same request with the outcome of its admission. -/
def withPermit (exchange : Exchange) (admitted : Bool) : Exchange :=
  { exchange with admitted }

@[simp] theorem servePath_withPermit (exchange : Exchange) (admitted : Bool)
    (key : TileKey) :
    (exchange.withPermit admitted).servePath env maxStaleSecs key =
      exchange.servePath env maxStaleSecs key :=
  rfl

/-- An awaited fill decides the answer of `get_tile`. -/
theorem getTile_awaited {exchange : Exchange} {key : TileKey}
    (awaited : exchange.servePath env maxStaleSecs key = .awaited)
    (ifNoneMatch : Option String) :
    exchange.getTile env maxStaleSecs key ifNoneMatch =
      exchange.fill env maxStaleSecs ifNoneMatch := by
  unfold servePath at awaited
  unfold getTile
  cases known : exchange.source with
  | none => simp [known] at awaited
  | some source =>
      cases stored : exchange.cached with
      | none =>
          simp only [known, stored] at awaited ⊢
          split_ifs at awaited ⊢
          rfl
      | some tile =>
          simp only [known, stored] at awaited ⊢
          split_ifs at awaited ⊢
          all_goals rfl

/-- Only an awaited fill depends on its admission. -/
theorem getTile_withPermit {exchange : Exchange} {key : TileKey}
    (answers : exchange.servePath env maxStaleSecs key ≠ .awaited)
    (admitted : Bool) (ifNoneMatch : Option String) :
    (exchange.withPermit admitted).getTile env maxStaleSecs key ifNoneMatch =
      exchange.getTile env maxStaleSecs key ifNoneMatch := by
  unfold servePath at answers
  unfold getTile withPermit
  cases known : exchange.source with
  | none => rfl
  | some source =>
      cases stored : exchange.cached with
      | none =>
          simp only [known, stored] at answers ⊢
          split_ifs at answers ⊢
          · rfl
          · rfl
          · exact absurd rfl answers
      | some tile =>
          simp only [known, stored] at answers ⊢
          split_ifs at answers ⊢
          all_goals first | rfl | exact absurd rfl answers

end Exchange

/-! ## Requests and their fills -/

structure TileRequest where
  key : TileKey
  exchange : Exchange
  ifNoneMatch : Option String

inductive FillPhase where
  /-- `spawn_fill` is called and has not asked for a permit. -/
  | requested
  /-- The task runs with its permit and has not asked for its flight. -/
  | spawned
  /-- The task has the flight of a caller of the single-flight table. -/
  | flying (caller : Nat)
  | ended
deriving DecidableEq, Repr

/-- A call of `spawn_fill`, and whether `fill_and_await` waits for it. -/
structure FillTask where
  request : TileRequest
  awaited : Bool
  phase : FillPhase

def FillTask.holdsPermit (task : FillTask) : Bool :=
  match task.phase with
  | .spawned | .flying _ => true
  | .requested | .ended => false

/-- What has turned a request away. -/
inductive Refusal where
  | shutdown
  | fillPermits
  | inflightKeys
deriving DecidableEq, Repr

structure Answer where
  request : TileRequest
  outcome : FetchOutcome
  refusal : Option Refusal

/-- The bounded resources, and every answer given so far. -/
structure Load where
  fills : List FillTask
  inflight : Inflight
  shutdownRequested : Bool
  answers : List Answer

namespace Load

inductive Label where
  | getTile (request : TileRequest)
  | spawnFill (fill : Nat)
  | fillLock (fill : Nat)
  | fillEnds (fill : Nat)
  /-- A step of the single-flight table by any party. -/
  | inflight (label : Inflight.Label)
  | shutdown

def permitsInUse (state : Load) : Nat :=
  state.fills.countP FillTask.holdsPermit

/-- `try_fill_permit`. -/
def tryFillPermit (state : Load) : Bool :=
  !state.shutdownRequested && decide (state.permitsInUse < maxFillTasks)

def setPhase (state : Load) (fill : Nat) (task : FillTask)
    (phase : FillPhase) : Load :=
  { state with fills := state.fills.set fill { task with phase } }

def answer (state : Load) (request : TileRequest) (outcome : FetchOutcome)
    (refusal : Option Refusal) : Load :=
  { state with
    answers := state.answers ++ [⟨request, outcome, refusal⟩] }

/-- A fill ends, and a request which waits for it gets the outcome. -/
def endFill (state : Load) (fill : Nat) (task : FillTask)
    (outcome : FetchOutcome) (refusal : Option Refusal) : Load :=
  if task.awaited then
    (state.setPhase fill task .ended).answer task.request outcome refusal
  else
    state.setPhase fill task .ended

/-- The key is in flight already, or the table has room for it. -/
def hasFlight (state : Load) (key : TileKey) : Bool :=
  (state.inflight.upgrade (inflightKey key)).isSome ||
    decide ((state.inflight.pruned (inflightKey key)).rows.length <
      maxInflightKeys)

section Step

variable (env : Environment Document) (maxStaleSecs : Int)

/-- `get_tile` up to the answer or to the call of `spawn_fill`. -/
def getTile (state : Load) (request : TileRequest) : Load :=
  let outcome := (request.exchange.getTile env maxStaleSecs request.key
    request.ifNoneMatch).outcome
  match request.exchange.servePath env maxStaleSecs request.key with
  | .inline => state.answer request outcome none
  | .background =>
      let checked := state.inflight.inflightContains
        (inflightKey request.key)
      let state := { state with inflight := checked.1 }
      let state :=
        if checked.2 then state
        else { state with
          fills := state.fills ++ [⟨request, false, .requested⟩] }
      state.answer request outcome none
  | .awaited => { state with
      fills := state.fills ++ [⟨request, true, .requested⟩] }

/-- `spawn_fill`, and the answer of `fill_and_await` without a task. -/
def spawnFill (state : Load) (fill : Nat) (task : FillTask) : Load :=
  if state.tryFillPermit then
    state.setPhase fill task .spawned
  else
    state.endFill fill task .unavailable
      (some (if state.shutdownRequested then .shutdown else .fillPermits))

/-- The first step of `fill`. -/
def fillLock (state : Load) (fill : Nat) (task : FillTask) : Load :=
  let asked := state.inflight.inflightLock (inflightKey task.request.key)
  let state := { state with inflight := asked.1 }
  match asked.2 with
  | some _ =>
      state.setPhase fill task (.flying (state.inflight.callers.length - 1))
  | none => state.endFill fill task .unavailable (some .inflightKeys)

/-- The fill returns after it has dropped its guard, its reference to the
lock and its permit. -/
def fillEnds (state : Load) (fill : Nat) (task : FillTask) : Load :=
  state.endFill fill task
    ((task.request.exchange.withPermit true).fill env maxStaleSecs
      task.request.ifNoneMatch).outcome none

def step (state : Load) : Label → Option Load
  | .getTile request => some (state.getTile env maxStaleSecs request)
  | .spawnFill fill => do
      let task ← state.fills[fill]?
      if task.phase = .requested then
        some (state.spawnFill fill task)
      else none
  | .fillLock fill => do
      let task ← state.fills[fill]?
      if task.phase = .spawned then
        some (state.fillLock fill task)
      else none
  | .fillEnds fill => do
      let task ← state.fills[fill]?
      match task.phase with
      | .flying caller =>
          if (state.inflight.callers[caller]?).any (·.phase == .gone) then
            some (state.fillEnds env maxStaleSecs fill task)
          else none
      | _ => none
  | .inflight label =>
      (state.inflight.step label).map fun inflight =>
        { state with inflight }
  | .shutdown => some { state with shutdownRequested := true }

end Step

end Load

/-- The service under load, from its start. -/
def loadMachine (env : Environment Document) (maxStaleSecs : Int) :
    Machine Load Load.Label where
  initial state := state = ⟨[], ⟨KeyedTable.empty, [], 0⟩, false, []⟩
  step := Load.step env maxStaleSecs

/-- An answer is what `get_tile` returns when its fill is admitted exactly if
nothing has turned the request away. -/
def Answer.Agrees (env : Environment Document) (maxStaleSecs : Int)
    (answer : Answer) : Prop :=
  answer.outcome =
    ((answer.request.exchange.withPermit answer.refusal.isNone).getTile env
      maxStaleSecs answer.request.key answer.request.ifNoneMatch).outcome

/-- The request is turned away for want of a permit or of room in the table,
although the row which it found stored may be served. -/
def Answer.hiddenByLoad (maxStaleSecs : Int) (answer : Answer) : Bool :=
  answer.request.exchange.mayBeServed maxStaleSecs answer.request.key &&
    decide (answer.outcome = .unavailable) &&
    (answer.refusal == some .fillPermits ||
      answer.refusal == some .inflightKeys)

namespace Load

/-- A request waits for the fill, and the row which it has found may be
served. -/
def servableWaits (state : Load) (maxStaleSecs : Int) (fill : Nat) : Bool :=
  (state.fills[fill]?).any fun task => task.awaited &&
    task.request.exchange.mayBeServed maxStaleSecs task.request.key

/-- A fill for which such a request waits finds a free permit when it is to
be spawned, and its flight when it runs. -/
def Admits (maxStaleSecs : Int) (state : Load) : Label → Prop
  | .spawnFill fill => state.servableWaits maxStaleSecs fill →
      state.shutdownRequested ∨ state.permitsInUse < maxFillTasks
  | .fillLock fill => state.servableWaits maxStaleSecs fill →
      (state.fills[fill]?).all fun task => state.hasFlight task.request.key
  | _ => True

instance decidableAdmits (maxStaleSecs : Int) (state : Load) :
    ∀ label, Decidable (state.Admits maxStaleSecs label)
  | .spawnFill fill => inferInstanceAs (Decidable
      (state.servableWaits maxStaleSecs fill = true →
        state.shutdownRequested = true ∨
          state.permitsInUse < maxFillTasks))
  | .fillLock fill => inferInstanceAs (Decidable
      (state.servableWaits maxStaleSecs fill = true →
        ((state.fills[fill]?).all fun task =>
          state.hasFlight task.request.key) = true))
  | .getTile _ | .fillEnds _ | .inflight _ | .shutdown => isTrue trivial

/-! ## The answers are those of `get_tile` -/

section Agreement

variable {env : Environment Document} {maxStaleSecs : Int}

/-- A request waits for a fill only where `get_tile` does. -/
def Agrees (env : Environment Document) (maxStaleSecs : Int)
    (state : Load) : Prop :=
  (∀ task ∈ state.fills, task.awaited →
    task.request.exchange.servePath env maxStaleSecs task.request.key =
      .awaited) ∧
  ∀ answer ∈ state.answers, Answer.Agrees env maxStaleSecs answer

theorem Agrees.answer {state : Load} (agrees : state.Agrees env maxStaleSecs)
    {request : TileRequest} {outcome : FetchOutcome}
    {refusal : Option Refusal}
    (right : Answer.Agrees env maxStaleSecs ⟨request, outcome, refusal⟩) :
    (state.answer request outcome refusal).Agrees env maxStaleSecs := by
  refine ⟨agrees.1, fun answer member => ?_⟩
  rcases List.mem_append.mp member with old | new
  · exact agrees.2 answer old
  · obtain rfl := List.mem_singleton.mp new
    exact right

theorem Agrees.setPhase {state : Load}
    (agrees : state.Agrees env maxStaleSecs) {fill : Nat} {task : FillTask}
    (known : state.fills[fill]? = some task) (phase : FillPhase) :
    (state.setPhase fill task phase).Agrees env maxStaleSecs := by
  refine ⟨fun other member waits => ?_, agrees.2⟩
  rcases List.mem_or_eq_of_mem_set member with old | rfl
  · exact agrees.1 other old waits
  · exact agrees.1 task (List.mem_of_getElem? known) waits

theorem Agrees.endFill {state : Load} (agrees : state.Agrees env maxStaleSecs)
    {fill : Nat} {task : FillTask} {outcome : FetchOutcome}
    {refusal : Option Refusal} (known : state.fills[fill]? = some task)
    (right : task.request.exchange.servePath env maxStaleSecs
        task.request.key = .awaited →
      Answer.Agrees env maxStaleSecs ⟨task.request, outcome, refusal⟩) :
    (state.endFill fill task outcome refusal).Agrees env maxStaleSecs := by
  unfold Load.endFill
  split
  · next waits =>
    apply (agrees.setPhase known .ended).answer
    exact right (agrees.1 task (List.mem_of_getElem? known) waits)
  · exact agrees.setPhase known .ended

theorem Agrees.request {state : Load}
    (agrees : state.Agrees env maxStaleSecs) {task : FillTask}
    (waits : task.awaited → task.request.exchange.servePath env maxStaleSecs
      task.request.key = .awaited) :
    Load.Agrees env maxStaleSecs
      { state with fills := state.fills ++ [task] } := by
  refine ⟨fun other member => ?_, agrees.2⟩
  rcases List.mem_append.mp member with old | new
  · exact agrees.1 other old
  · obtain rfl := List.mem_singleton.mp new
    exact waits

/-- A request which is turned away gets the answer of a fill which was not
admitted. -/
theorem agrees_refused {request : TileRequest} {refusal : Refusal}
    (awaited : request.exchange.servePath env maxStaleSecs request.key =
      .awaited) :
    Answer.Agrees env maxStaleSecs ⟨request, .unavailable, some refusal⟩ := by
  have refused : (request.exchange.withPermit false).servePath env maxStaleSecs
      request.key = .awaited := awaited
  change FetchOutcome.unavailable = ((request.exchange.withPermit false).getTile
    env maxStaleSecs request.key request.ifNoneMatch).outcome
  rw [Exchange.getTile_awaited env maxStaleSecs refused]
  rfl

theorem agrees_admitted {request : TileRequest}
    (awaited : request.exchange.servePath env maxStaleSecs request.key =
      .awaited) :
    Answer.Agrees env maxStaleSecs ⟨request,
      ((request.exchange.withPermit true).fill env maxStaleSecs
        request.ifNoneMatch).outcome, none⟩ := by
  have admitted : (request.exchange.withPermit true).servePath env maxStaleSecs
      request.key = .awaited := awaited
  change _ = ((request.exchange.withPermit true).getTile env maxStaleSecs
    request.key request.ifNoneMatch).outcome
  rw [Exchange.getTile_awaited env maxStaleSecs admitted]

theorem agrees_inline {request : TileRequest}
    (answers : request.exchange.servePath env maxStaleSecs request.key ≠
      .awaited) :
    Answer.Agrees env maxStaleSecs ⟨request,
      (request.exchange.getTile env maxStaleSecs request.key
        request.ifNoneMatch).outcome, none⟩ :=
  congrArg Decision.outcome
    (Exchange.getTile_withPermit env maxStaleSecs answers true
      request.ifNoneMatch).symm

theorem Agrees.step {state next : Load} {label : Label}
    (agrees : state.Agrees env maxStaleSecs)
    (stepped : state.step env maxStaleSecs label = some next) :
    next.Agrees env maxStaleSecs := by
  cases label with
  | getTile request =>
      obtain rfl := Option.some.inj stepped
      unfold Load.getTile
      dsimp only
      split
      · next path => exact agrees.answer (agrees_inline (by simp [path]))
      · next path =>
        apply Agrees.answer _ (agrees_inline (by simp [path]))
        split
        · exact agrees
        · exact Agrees.request agrees nofun
      · next path => exact agrees.request fun _ => path
  | spawnFill fill =>
      obtain ⟨task, known, spawns⟩ := Option.bind_eq_some_iff.mp stepped
      split at spawns
      · obtain rfl := Option.some.inj spawns
        unfold Load.spawnFill
        split
        · exact agrees.setPhase known .spawned
        · exact agrees.endFill known agrees_refused
      · contradiction
  | fillLock fill =>
      obtain ⟨task, known, locks⟩ := Option.bind_eq_some_iff.mp stepped
      split at locks
      · obtain rfl := Option.some.inj locks
        have asked : Load.Agrees env maxStaleSecs { state with
            inflight := (state.inflight.inflightLock
              (inflightKey task.request.key)).1 } := agrees
        unfold Load.fillLock
        dsimp only
        split
        · exact asked.setPhase known _
        · exact asked.endFill known agrees_refused
      · contradiction
  | fillEnds fill =>
      obtain ⟨task, known, ends⟩ := Option.bind_eq_some_iff.mp stepped
      split at ends
      · split at ends
        · obtain rfl := Option.some.inj ends
          exact agrees.endFill known agrees_admitted
        · contradiction
      · contradiction
  | inflight label =>
      obtain ⟨inflight, _, rfl⟩ := Option.map_eq_some_iff.mp stepped
      exact agrees
  | shutdown =>
      obtain rfl := Option.some.inj stepped
      exact agrees

/-- Every answer under load is an answer of `get_tile`. -/
theorem Agrees.reachable {state : Load}
    (reached : (loadMachine env maxStaleSecs).Reachable state) :
    state.Agrees env maxStaleSecs := by
  apply reached.invariant
  · rintro start rfl
    constructor <;> simp
  · intro before label after agrees stepped
    exact agrees.step stepped

end Agreement

/-! ## Hidden tiles -/

section Hidden

variable {env : Environment Document} {maxStaleSecs : Int}

/-- No answer given so far hides a tile. -/
def Visible (maxStaleSecs : Int) (state : Load) : Prop :=
  ∀ answer ∈ state.answers, answer.hiddenByLoad maxStaleSecs = false

theorem visible_answer {state : Load} {request : TileRequest}
    {outcome : FetchOutcome} {refusal : Option Refusal} :
    (state.answer request outcome refusal).Visible maxStaleSecs ↔
      state.Visible maxStaleSecs ∧
        Answer.hiddenByLoad maxStaleSecs ⟨request, outcome, refusal⟩ =
          false := by
  simp only [Visible, Load.answer, List.forall_mem_append,
    List.forall_mem_singleton]

theorem visible_answered {state : Load} {request : TileRequest}
    {outcome : FetchOutcome} :
    (state.answer request outcome none).Visible maxStaleSecs ↔
      state.Visible maxStaleSecs := by
  rw [visible_answer]
  simp [Answer.hiddenByLoad]

theorem visible_setPhase {state : Load} {fill : Nat} {task : FillTask}
    {phase : FillPhase} :
    (state.setPhase fill task phase).Visible maxStaleSecs ↔
      state.Visible maxStaleSecs :=
  Iff.rfl

/-- A fill which answers a request that was not turned away. -/
theorem visible_fillEnds {state : Load} {fill : Nat} {task : FillTask} :
    (state.fillEnds env maxStaleSecs fill task).Visible maxStaleSecs ↔
      state.Visible maxStaleSecs := by
  unfold fillEnds endFill
  split
  · rw [visible_answered, visible_setPhase]
  · exact visible_setPhase

/-- A fill which is turned away hides a tile exactly if a request with a
servable row waits for it. -/
theorem visible_refused {state : Load} {fill : Nat} {task : FillTask}
    (known : state.fills[fill]? = some task) {refusal : Refusal}
    (load : refusal ≠ .shutdown) :
    (state.endFill fill task .unavailable (some refusal)).Visible
        maxStaleSecs ↔
      state.Visible maxStaleSecs ∧
        ¬ state.servableWaits maxStaleSecs fill := by
  have cause : (some refusal == some Refusal.fillPermits ||
      some refusal == some Refusal.inflightKeys) = true := by
    cases refusal with
    | shutdown => exact absurd rfl load
    | fillPermits => rfl
    | inflightKeys => rfl
  unfold endFill servableWaits
  rw [known, Option.any_some]
  cases waits : task.awaited with
  | true =>
      rw [if_pos rfl, visible_answer, visible_setPhase]
      simp only [Answer.hiddenByLoad, cause]
      simp
  | false =>
      rw [if_neg (by simp), visible_setPhase]
      simp

/-- During a shutdown nothing is turned away because of load. -/
theorem visible_shutdown {state : Load} {fill : Nat} {task : FillTask} :
    (state.endFill fill task .unavailable (some .shutdown)).Visible
        maxStaleSecs ↔ state.Visible maxStaleSecs := by
  unfold endFill
  split
  · rw [visible_answer, visible_setPhase]
    simp [Answer.hiddenByLoad]
  · exact visible_setPhase

theorem visible_spawnFill {state : Load} {fill : Nat} {task : FillTask}
    (known : state.fills[fill]? = some task) :
    (state.spawnFill fill task).Visible maxStaleSecs ↔
      state.Visible maxStaleSecs ∧
        state.Admits maxStaleSecs (.spawnFill fill) := by
  unfold spawnFill Admits tryFillPermit
  by_cases stops : state.shutdownRequested = true
  · rw [stops, if_neg (by simp), if_pos rfl, visible_shutdown]
    simp
  · rw [Bool.not_eq_true] at stops
    by_cases free : state.permitsInUse < maxFillTasks
    · rw [if_pos (by simp [stops, free]), visible_setPhase]
      simp [free]
    · rw [if_neg (by simp [stops, free]), if_neg (by simp [stops]),
        visible_refused known (by decide)]
      simp [stops, free]

/-- `inflight_lock` returns a lock exactly if the table has a flight for the
key. -/
theorem isSome_inflightLock (state : Load) (key : TileKey) :
    (state.inflight.inflightLock (inflightKey key)).2.isSome =
      state.hasFlight key := by
  unfold Inflight.inflightLock hasFlight
  cases upgraded : state.inflight.upgrade (inflightKey key) with
  | some lock => rfl
  | none =>
      dsimp only
      split
      · next full => simp [Nat.not_lt.mpr full]
      · next room => simp [Nat.lt_of_not_le room]

theorem visible_fillLock {state : Load} {fill : Nat} {task : FillTask}
    (known : state.fills[fill]? = some task) :
    (state.fillLock fill task).Visible maxStaleSecs ↔
      state.Visible maxStaleSecs ∧
        state.Admits maxStaleSecs (.fillLock fill) := by
  have flight := state.isSome_inflightLock task.request.key
  have asked : ∀ state' : Load, state'.fills = state.fills →
      state'.answers = state.answers →
        ((state'.endFill fill task .unavailable
            (some .inflightKeys)).Visible maxStaleSecs ↔
          state.Visible maxStaleSecs ∧
            ¬ state.servableWaits maxStaleSecs fill) := by
    intro state' fills answers
    rw [visible_refused (fills ▸ known) (by decide)]
    unfold Visible servableWaits
    rw [fills, answers]
  unfold fillLock Admits
  dsimp only
  rw [known]
  cases locked : (state.inflight.inflightLock
      (inflightKey task.request.key)).2 with
  | some lock =>
      rw [locked, Option.isSome_some] at flight
      dsimp only
      rw [visible_setPhase]
      simp [← flight, Visible]
  | none =>
      rw [locked, Option.isSome_none] at flight
      dsimp only
      have refused := asked { state with inflight :=
        (state.inflight.inflightLock (inflightKey task.request.key)).1 }
        rfl rfl
      rw [refused]
      simp [← flight]

/-- One step hides a tile exactly if it does not admit a fill for which a
request with a servable row waits. -/
theorem visible_step {state next : Load} {label : Label}
    (stepped : state.step env maxStaleSecs label = some next) :
    next.Visible maxStaleSecs ↔
      state.Visible maxStaleSecs ∧ state.Admits maxStaleSecs label := by
  cases label with
  | getTile request =>
      obtain rfl := Option.some.inj stepped
      have free : state.Admits maxStaleSecs (.getTile request) := trivial
      unfold Load.getTile
      dsimp only
      split
      · rw [visible_answered]
        exact (and_iff_left free).symm
      · rw [visible_answered]
        split <;> exact (and_iff_left free).symm
      · exact (and_iff_left free).symm
  | spawnFill fill =>
      obtain ⟨task, known, spawns⟩ := Option.bind_eq_some_iff.mp stepped
      split at spawns
      · obtain rfl := Option.some.inj spawns
        exact visible_spawnFill known
      · contradiction
  | fillLock fill =>
      obtain ⟨task, known, locks⟩ := Option.bind_eq_some_iff.mp stepped
      split at locks
      · obtain rfl := Option.some.inj locks
        exact visible_fillLock known
      · contradiction
  | fillEnds fill =>
      obtain ⟨task, known, ends⟩ := Option.bind_eq_some_iff.mp stepped
      split at ends
      · split at ends
        · obtain rfl := Option.some.inj ends
          rw [visible_fillEnds]
          exact (and_iff_left trivial).symm
        · contradiction
      · contradiction
  | inflight label =>
      obtain ⟨inflight, _, rfl⟩ := Option.map_eq_some_iff.mp stepped
      exact (and_iff_left trivial).symm
  | shutdown =>
      obtain rfl := Option.some.inj stepped
      exact (and_iff_left trivial).symm

end Hidden

end Load

/-! ## Runs -/

section Runs

variable {env : Environment Document} {maxStaleSecs : Int}

/-- Load hides no stored tile which may be served exactly in the runs where
every fill that such a request waits for finds a free permit and its flight.
All answers of the run are those of `get_tile`. -/
theorem load_hides_no_tile_iff {start finish : Load}
    {labels : List Load.Label}
    (begins : (loadMachine env maxStaleSecs).initial start)
    (run : (loadMachine env maxStaleSecs).exec start labels = some finish) :
    ((∀ answer ∈ finish.answers,
        answer.hiddenByLoad maxStaleSecs = false) ↔
      (loadMachine env maxStaleSecs).AllSteps
        (fun state label => state.Admits maxStaleSecs label) start labels) ∧
    ∀ answer ∈ finish.answers, answer.Agrees env maxStaleSecs := by
  constructor
  · have exact := Machine.exec_iff_allSteps
      (fun state label next _ stepped =>
        @Load.visible_step _ env maxStaleSecs state next label stepped) run
      (Machine.allSteps_trivial start labels)
    have clear : start.Visible maxStaleSecs := by
      subst begins
      simp [Load.Visible]
    exact exact.trans (and_iff_right clear)
  · exact (Load.Agrees.reachable ⟨start, labels, begins, run⟩).2

end Runs

/-! ## A burst of requests -/

/-- A chart with tiles to spare. -/
def coastChart : ChartSource :=
  { sampleChart with maxzoom := 3 }

/-- A request for the tile which was stored and pinned a month ago. -/
def monthOldRequest : TileRequest where
  key := ⟨"chart", 0, 0, 0⟩
  exchange := monthOld .timeout
  ifNoneMatch := none

/-- A request for a tile which is not stored. -/
def missRequest (x : Nat) : TileRequest where
  key := ⟨"chart", 3, x, 0⟩
  exchange := { monthOld .timeout with
    source := some coastChart
    cached := none
    existing := none
    retried := none }
  ifNoneMatch := none

/-- Some requests for missing tiles and their fills, and then a request for
the stored one. -/
def burst (misses : Nat) : List Load.Label :=
  (List.range misses).flatMap (fun x =>
    [.getTile (missRequest x), .spawnFill x]) ++
      [.getTile monthOldRequest, .spawnFill misses]

def idleLoad : Load :=
  ⟨[], ⟨KeyedTable.empty, [], 0⟩, false, []⟩

/-- Eight fills of missing tiles hide the stored one, which a slow source or a
failed fetch would not have hidden. -/
theorem burst_hides_tile :
    ∃ finish answer,
      (loadMachine sampleDeployment 86400).exec idleLoad (burst 8) =
        some finish ∧
      answer ∈ finish.answers ∧
      answer.request.exchange.mayBeServed 86400 answer.request.key = true ∧
      answer.outcome = .unavailable ∧
      answer.refusal = some .fillPermits := by
  have ran : ((loadMachine sampleDeployment 86400).exec idleLoad
      (burst 8)).map (fun finish => finish.answers.any fun answer =>
        answer.request.exchange.mayBeServed 86400 answer.request.key &&
          decide (answer.outcome = .unavailable) &&
          decide (answer.refusal = some .fillPermits)) = some true := by
    decide +kernel
  obtain ⟨finish, run, found⟩ := Option.map_eq_some_iff.mp ran
  obtain ⟨answer, member, hidden⟩ := List.any_eq_true.mp found
  simp only [Bool.and_eq_true, decide_eq_true_eq] at hidden
  exact ⟨finish, answer, run, member, hidden.1.1, hidden.1.2, hidden.2⟩

/-- Alone, the same request finds a permit and its flight. -/
def aloneRun : List Load.Label :=
  [.getTile monthOldRequest, .spawnFill 0, .fillLock 0,
    .inflight (.acquire 0), .inflight (.inflightFinish 0),
    .inflight (.releaseGuard 0), .inflight (.releaseLock 0), .fillEnds 0]

theorem aloneRun_hides_no_tile :
    ∃ finish, (loadMachine sampleDeployment 86400).exec idleLoad aloneRun =
        some finish ∧
      finish.answers.length = 1 ∧
      (∀ answer ∈ finish.answers, answer.hiddenByLoad 86400 = false) ∧
      ∀ answer ∈ finish.answers, answer.Agrees sampleDeployment 86400 := by
  have ran : ((loadMachine sampleDeployment 86400).exec idleLoad
      aloneRun).map (fun finish => finish.answers.length) = some 1 := by
    decide +kernel
  have admitted : (loadMachine sampleDeployment 86400).AllSteps
      (fun state label => state.Admits 86400 label) idleLoad aloneRun := by
    decide +kernel
  obtain ⟨finish, run, one⟩ := Option.map_eq_some_iff.mp ran
  have served := load_hides_no_tile_iff rfl run
  exact ⟨finish, run, one, served.1.mpr admitted, served.2⟩

end ChartLocker.Warm
