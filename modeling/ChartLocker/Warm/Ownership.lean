import ChartLocker.Library.Lease
import ChartLocker.Library.Semaphore
import ChartLocker.Warm.Download

/-!
# What the tasks of the service own

A warm task owns a permit of `warm_semaphore` and, while it holds the flight
of its key, the key; a job which stages assets owns `assets_warming`; and
every task is owned by the job which joins it.  All of these are given back on
every path, also on the ones of a panic and of a dropped request, so that the
shared counters and flags can be read off the parties in every state.
-/

namespace ChartLocker.Warm

open Library Cache Catalog

variable {Document : Type}

/-! ## What a party owns -/

def TilePhase.working : TilePhase → Bool
  | .finished _ => false
  | _ => true

def AssetPhase.working : AssetPhase → Bool
  | .finished _ => false
  | _ => true

/-- A task which has not given back its permit. -/
def Worker.holdsPermit : Worker → Bool
  | .tile task => task.phase.working
  | .asset task => task.phase.working
  | _ => false

/-- The job which joins a task. -/
def Worker.owner : Worker → Option Nat
  | .tile task => some task.order
  | .asset task => some task.order
  | _ => none

/-- The entry of the in-flight table which the party holds. -/
def Worker.flight : Worker → Option String
  | .tile task => task.flight.map inflightKey
  | .live fetch => fetch.flight.map inflightKey
  | _ => none

/-- The flag of the assets, which the stage takes in its first step. -/
def AssetStage.flag (stage : AssetStage) : Option Unit :=
  match stage.phase with
  | .waiting => none
  | _ => some ()

def WarmJob.assetsFlag (job : WarmJob) : Option Unit :=
  match job.phase with
  | .assets stage => stage.flag
  | _ => none

/-- The tasks which the job has spawned and not joined; those of the tiles
have been joined when the assets are staged. -/
def WarmJob.tasks (job : WarmJob) : List Nat :=
  match job.phase with
  | .assets stage => stage.set
  | _ => job.set

namespace Service

variable (service : Service Document)

def holdsPermit (id : Nat) : Bool :=
  (service.workers id).any Worker.holdsPermit

def flights : Registry String Nat where
  held key := key ∈ service.heldFlights
  owned id := (service.workers id).bind Worker.flight

def assetsFlags : Registry Unit Nat where
  held _ := service.assetsWarming = true
  owned order := (service.warmJobs order).bind WarmJob.assetsFlag

end Service

/-! ## What an effect does to the shared counters -/

namespace Effect

def onPermits (effect : Effect) (permits : Nat) : Nat :=
  match effect with
  | .spawn _ _ => permits - 1
  | .endTask _ => permits + 1
  | _ => permits

def onAssets (effect : Effect) (warming : Bool) : Bool :=
  match effect with
  | .holdAssets => true
  | .freeAssets => false
  | _ => warming

def onFlights (effect : Effect) (heldFlights : List String) : List String :=
  match effect with
  | .lockFlight key => inflightKey key :: heldFlights
  | .freeFlight key | .endTask key =>
      key.elim heldFlights fun held => heldFlights.filter (· ≠ inflightKey held)
  | _ => heldFlights

end Effect

/-- What an effect does to the permits, the flag and the in-flight table, and
what it waits for. -/
structure Granted (service : Service Document) (effect : Effect)
    (next : Service Document) : Prop where
  permits : next.warmPermits = effect.onPermits service.warmPermits
  assets : next.assetsWarming = effect.onAssets service.assetsWarming
  heldFlights : next.heldFlights = effect.onFlights service.heldFlights
  permit : ∀ id worker, effect = .spawn id worker → 0 < service.warmPermits
  flag : effect = .holdAssets → service.assetsWarming = false
  flight : ∀ key, effect = .lockFlight key →
    inflightKey key ∉ service.heldFlights

theorem granted_of_perform {service next : Service Document} {effect : Effect}
    (performed : service.perform effect = some next) :
    Granted service effect next := by
  cases effect with
  | lockConfig holder =>
      obtain ⟨app, _, rfl⟩ := lockConfig_app performed
      exact ⟨rfl, rfl, rfl, by simp, by simp, by simp⟩
  | unlockConfig holder =>
      obtain ⟨app, _, rfl⟩ := unlockConfig_app performed
      exact ⟨rfl, rfl, rfl, by simp, by simp, by simp⟩
  | register holder job =>
      obtain ⟨unlocked, freed, rfl⟩ := Option.map_eq_some_iff.mp performed
      obtain ⟨app, _, rfl⟩ := unlockConfig_app freed
      exact ⟨rfl, rfl, rfl, by simp, by simp, by simp⟩
  | refuse holder regionId =>
      obtain ⟨unlocked, freed, rfl⟩ := Option.map_eq_some_iff.mp performed
      obtain ⟨app, _, rfl⟩ := unlockConfig_app freed
      exact ⟨rfl, rfl, rfl, by simp, by simp, by simp⟩
  | spawn id worker =>
      simp only [Service.perform] at performed
      split at performed
      · contradiction
      · next admitted =>
        cases performed
        refine ⟨rfl, rfl, rfl, fun _ _ _ => ?_, by simp, by simp⟩
        exact Nat.pos_of_ne_zero fun none => admitted (.inl none)
  | lockFlight key =>
      simp only [Service.perform] at performed
      split at performed
      · contradiction
      · next free =>
        cases performed
        refine ⟨rfl, rfl, rfl, by simp, by simp, fun other same => ?_⟩
        cases same
        exact free
  | holdAssets =>
      simp only [Service.perform] at performed
      split at performed
      · contradiction
      · next free =>
        cases performed
        exact ⟨rfl, rfl, rfl, by simp, fun _ => Bool.eq_false_iff.mpr free,
          by simp⟩
  | _ =>
      cases performed
      exact ⟨rfl, rfl, rfl, by simp, by simp, by simp⟩

/-! ## Steps of the parties -/

/-- Effects which touch neither a task nor what a party owns. -/
def Effect.isPlain : Effect → Bool
  | .spawn _ _ | .take _ | .lockFlight _ | .freeFlight _ | .endTask _
  | .holdAssets | .freeAssets => false
  | _ => true

/-- The task has not come to the flight of its key, or it has ended. -/
def TilePhase.flightless : TilePhase → Bool
  | .pinning recheck | .pinCalling recheck _ => !recheck
  | .locking | .finished _ => true
  | _ => false

/-- A party which does not hold its flight says so. -/
def Worker.Tidy : Worker → Prop
  | .tile task => task.phase.flightless = true → task.held = false
  | .live fetch => fetch.phase = .locking → fetch.held = false
  | _ => True

/-- What a step of a party does to the permit and the flight it owns. -/
inductive Worker.Uses (worker : Worker) (moved : Option Worker) :
    Effect → Prop where
  | keeps {effect : Effect} (plain : effect.isPlain = true)
      (permit : moved.any Worker.holdsPermit = worker.holdsPermit)
      (flight : moved.bind Worker.flight = worker.flight) :
      Uses worker moved effect
  | locks (key : TileKey)
      (permit : moved.any Worker.holdsPermit = worker.holdsPermit)
      (before : worker.flight = none)
      (after : moved.bind Worker.flight = some (inflightKey key)) :
      Uses worker moved (.lockFlight key)
  | frees (key : Option TileKey)
      (permit : moved.any Worker.holdsPermit = worker.holdsPermit)
      (before : worker.flight = key.map inflightKey)
      (after : moved.bind Worker.flight = none) :
      Uses worker moved (.freeFlight key)
  | ends (key : Option TileKey) (holds : worker.holdsPermit = true)
      (released : moved.any Worker.holdsPermit = false)
      (before : worker.flight = key.map inflightKey)
      (after : moved.bind Worker.flight = none) :
      Uses worker moved (.endTask key)

section Steps

variable {env : Environment Document} {service : Service Document}

/-- A task which goes on at another await point. -/
theorem TileTask.uses_enter {task : TileTask} {phase : TilePhase}
    {effect : Effect} (plain : effect.isPlain = true)
    (works : task.phase.working = true) (goes : phase.working = true) :
    (Worker.tile task).Uses (some (.tile (task.enter phase))) effect := by
  refine .keeps plain ?_ rfl
  exact goes.trans works.symm

/-- A task which ends, also by a panic. -/
theorem TileTask.uses_end {task : TileTask} {result : Option Fetched}
    (works : task.phase.working = true) :
    (Worker.tile task).Uses (some (.tile
      { task with held := false, phase := .finished result }))
      (.endTask task.flight) :=
  .ends task.flight works rfl rfl rfl

theorem TileTask.step_uses {task moved : TileTask} {event : Event}
    {effect : Effect} (tidy : (Worker.tile task).Tidy)
    (stepped : task.step env service event = some (moved, effect)) :
    (Worker.tile task).Uses (some (.tile moved)) effect ∧
      (Worker.tile moved).Tidy := by
  have works : task.phase.working = true := by
    cases phase : task.phase with
    | finished result => simp [TileTask.step, phase] at stepped
    | _ => rfl
  have entered : ∀ {phase : TilePhase}, (phase.flightless = true →
      task.phase.flightless = true) → (Worker.tile (task.enter phase)).Tidy :=
    fun later early => tidy (later early)
  simp only [TileTask.step] at stepped
  split at stepped
  · next pinning =>
    cases stepped
    refine ⟨uses_enter rfl works rfl, entered fun early => ?_⟩
    rw [pinning]
    exact early
  · next recheck budgets disk now calling =>
    cases stepped
    split
    · exact ⟨uses_enter rfl works rfl, fun early => Bool.noConfusion early⟩
    · exact ⟨uses_enter rfl works rfl, fun early => Bool.noConfusion early⟩
    · cases recheck with
      | true =>
          exact ⟨uses_enter rfl works rfl, fun early =>
            Bool.noConfusion early⟩
      | false =>
          refine ⟨uses_enter rfl works rfl, entered fun _ => ?_⟩
          rw [calling]
          rfl
  · next recheck budgets calling =>
    cases stepped
    cases recheck with
    | true =>
        exact ⟨uses_enter rfl works rfl, fun early => Bool.noConfusion early⟩
    | false =>
        refine ⟨uses_enter rfl works rfl, entered fun _ => ?_⟩
        rw [calling]
        rfl
  · cases stepped
    exact ⟨uses_enter rfl works rfl, fun early => Bool.noConfusion early⟩
  · next locking =>
    cases stepped
    have free : task.held = false := tidy (by rw [locking]; rfl)
    have idle : (Worker.tile task).flight = none := by
      simp [Worker.flight, TileTask.flight, free]
    refine ⟨.locks task.key ?_ idle rfl, fun early => Bool.noConfusion early⟩
    exact works.symm
  · split at stepped
    · cases stepped
      exact ⟨uses_enter rfl works rfl, fun early => Bool.noConfusion early⟩
    · cases stepped
      exact ⟨uses_enter rfl works rfl, fun early => Bool.noConfusion early⟩
  · next response now fetching =>
    cases stepped
    exact ⟨uses_enter rfl works rfl, fun early => Bool.noConfusion early⟩
  · cases stepped
    exact ⟨uses_enter rfl works rfl, fun early => Bool.noConfusion early⟩
  · split at stepped
    · cases stepped
      exact ⟨uses_enter rfl works rfl, fun early => Bool.noConfusion early⟩
    · contradiction
  · cases stepped
    exact ⟨uses_end works, fun _ => rfl⟩
  · contradiction
  · cases stepped
    exact ⟨uses_end works, fun _ => rfl⟩
  · contradiction

theorem AssetTask.step_uses {task moved : AssetTask} {event : Event}
    {effect : Effect}
    (stepped : task.step env service event = some (moved, effect)) :
    (Worker.asset task).Uses (some (.asset moved)) effect := by
  have works : task.phase.working = true := by
    cases phase : task.phase with
    | finished result => simp [AssetTask.step, phase] at stepped
    | _ => rfl
  have keeps : ∀ {phase : AssetPhase} {effect : Effect},
      effect.isPlain = true → phase.working = true →
      (Worker.asset task).Uses (some (.asset (task.enter phase))) effect :=
    fun plain goes => .keeps plain (goes.trans works.symm) rfl
  have fetches : ∀ {effect : Effect}, effect.isPlain = true →
      (Worker.asset task).Uses (some (.asset (task.fetch env))) effect := by
    intro effect plain
    unfold AssetTask.fetch
    split
    · exact keeps plain rfl
    · exact keeps plain rfl
  simp only [AssetTask.step] at stepped
  repeat' split at stepped
  all_goals first
    | contradiction
    | (cases stepped; exact keeps rfl rfl)
    | (cases stepped; exact fetches rfl)
    | (cases stepped; exact .ends none works rfl rfl rfl)

/-- A live fetch which goes on at another await point. -/
theorem LiveFetch.uses_enter {fetch : LiveFetch} {phase : LivePhase}
    {effect : Effect} (plain : effect.isPlain = true)
    (later : phase ≠ .locking) :
    (Worker.live fetch).Uses (some (.live (fetch.enter phase))) effect ∧
      ∀ moved, some (fetch.enter phase) = some moved →
        (Worker.live moved).Tidy := by
  refine ⟨.keeps plain rfl rfl, fun moved same => ?_⟩
  cases same
  exact fun locking => absurd locking later

theorem LiveFetch.uses_ends {fetch : LiveFetch} :
    (Worker.live fetch).Uses (fetch.ends.1.map .live) fetch.ends.2 ∧
      ∀ moved, fetch.ends.1 = some moved → (Worker.live moved).Tidy :=
  ⟨.frees fetch.flight rfl rfl rfl, fun _ same => nomatch same⟩

theorem LiveFetch.fillAnswer_enters {fetch next : LiveFetch}
    {stale : Option CachedTile} {response : Response} {now : Int}
    (answered : fetch.fillAnswer env service stale response now =
      some next) :
    ∃ phase, phase ≠ .locking ∧ next = fetch.enter phase := by
  simp only [LiveFetch.fillAnswer, LiveFetch.store] at answered
  repeat' split at answered
  all_goals first
    | contradiction
    | (cases answered; exact ⟨_, by simp, rfl⟩)

theorem LiveFetch.assetAnswer_enters {fetch next : LiveFetch}
    {kind : StyleAssetKind} {stale : Option CachedTile} {response : Response}
    {now : Int}
    (answered : fetch.assetAnswer env service kind stale response now =
      some next) :
    ∃ phase, phase ≠ .locking ∧ next = fetch.enter phase := by
  simp only [LiveFetch.assetAnswer, LiveFetch.store] at answered
  repeat' split at answered
  all_goals first
    | contradiction
    | (cases answered; exact ⟨_, by simp, rfl⟩)
    | (obtain ⟨tile, _, rfl⟩ := Option.map_eq_some_iff.mp answered
       exact ⟨_, by simp, rfl⟩)

theorem LiveFetch.uses_orEnds {fetch : LiveFetch} {next : Option LiveFetch}
    (enters : ∀ going, next = some going →
      ∃ phase, phase ≠ .locking ∧ going = fetch.enter phase) :
    (Worker.live fetch).Uses ((fetch.orEnds next).1.map .live)
      (fetch.orEnds next).2 ∧
      ∀ moved, (fetch.orEnds next).1 = some moved →
        (Worker.live moved).Tidy := by
  cases next with
  | none => exact uses_ends
  | some going =>
      obtain ⟨phase, later, rfl⟩ := enters going rfl
      exact uses_enter rfl later

theorem LiveFetch.step_uses {fetch : LiveFetch} {moved : Option LiveFetch}
    {event : Event} {effect : Effect} (tidy : (Worker.live fetch).Tidy)
    (stepped : fetch.step env service event = some (moved, effect)) :
    (Worker.live fetch).Uses (moved.map .live) effect ∧
      ∀ going, moved = some going → (Worker.live going).Tidy := by
  have stores : ∀ evict : Option Int, (Worker.live fetch).Uses
      (some (.live (fetch.stored evict))) .quiet ∧
        ∀ moved, some (fetch.stored evict) = some moved →
          (Worker.live moved).Tidy := by
    intro evict
    cases evict with
    | none => exact uses_enter rfl (by simp)
    | some cap => exact uses_enter rfl (by simp)
  simp only [LiveFetch.step] at stepped
  split at stepped
  · cases stepped
    exact uses_ends
  · next locking =>
    cases stepped
    have free : fetch.held = false := tidy locking
    have idle : (Worker.live fetch).flight = none := by
      simp [Worker.flight, LiveFetch.flight, free]
    refine ⟨.locks fetch.key rfl idle rfl, fun going same => ?_⟩
    cases same
    intro locking
    cases locking
  · split at stepped
    · cases stepped
      exact uses_ends
    · split at stepped
      · cases stepped
        exact uses_enter rfl (by simp)
      · cases stepped
        exact uses_enter rfl (by simp)
  · split at stepped
    · cases stepped
      exact uses_enter rfl (by simp)
    · cases stepped
      exact uses_enter rfl (by simp)
  · cases stepped
    exact uses_ends
  · cases stepped
    exact uses_enter rfl (by simp)
  · cases stepped
    exact uses_enter rfl (by simp)
  · next stale response now fetching =>
    split at stepped
    · have uses := @uses_orEnds fetch
        (fetch.fillAnswer env service stale response now)
        fun _ => fillAnswer_enters
      rw [Option.some.inj stepped] at uses
      exact uses
    · next kind _ =>
      have uses := @uses_orEnds fetch
        (fetch.assetAnswer env service kind stale response now)
        fun _ => assetAnswer_enters
      rw [Option.some.inj stepped] at uses
      exact uses
  · cases stepped
    exact uses_ends
  · next tile now evict disk at_ storing =>
    cases stepped
    cases evict with
    | none => exact uses_enter rfl (by simp)
    | some cap => exact uses_enter rfl (by simp)
  · cases stepped
    exact stores _
  · cases stepped
    exact uses_enter rfl (by simp)
  · cases stepped
    exact uses_enter rfl (by simp)
  · cases stepped
    exact uses_ends
  · split at stepped
    · contradiction
    · next storing =>
      cases stepped
      refine ⟨.frees fetch.flight rfl rfl rfl, fun going same => ?_⟩
      cases same
      exact fun _ => rfl
    · next evicting =>
      cases stepped
      refine ⟨.frees fetch.flight rfl rfl rfl, fun going same => ?_⟩
      cases same
      exact fun _ => rfl
    · cases stepped
      exact uses_ends
  · contradiction

theorem Deletion.step_plain {deletion : Deletion} {moved : Option Deletion}
    {event : Event} {effect : Effect}
    (stepped : deletion.step service event = some (moved, effect)) :
    effect.isPlain = true := by
  simp only [Deletion.step] at stepped
  repeat' split at stepped
  all_goals first | contradiction | (cases stepped; rfl)

theorem Start.step_plain {start : Start} {moved : Option Start}
    {event : Event} {effect : Effect}
    (stepped : start.step env service event = some (moved, effect)) :
    effect.isPlain = true := by
  simp only [Start.step] at stepped
  repeat' split at stepped
  all_goals first | contradiction | (cases stepped; rfl)

/-- A party beside the tasks and the live fetches owns nothing. -/
theorem Worker.step_uses {worker : Worker} {moved : Option Worker}
    {event : Event} {effect : Effect} (tidy : worker.Tidy)
    (stepped : worker.step env service event = some (moved, effect)) :
    worker.Uses moved effect ∧ ∀ going, moved = some going → going.Tidy := by
  cases worker with
  | tile task =>
      obtain ⟨⟨after, _⟩, advanced, same⟩ := Option.map_eq_some_iff.mp stepped
      cases same
      obtain ⟨uses, later⟩ := TileTask.step_uses tidy advanced
      refine ⟨uses, fun going same => ?_⟩
      cases same
      exact later
  | asset task =>
      obtain ⟨⟨after, _⟩, advanced, same⟩ := Option.map_eq_some_iff.mp stepped
      cases same
      refine ⟨AssetTask.step_uses advanced, fun going same => ?_⟩
      cases same
      trivial
  | live fetch =>
      obtain ⟨⟨after, _⟩, advanced, same⟩ := Option.map_eq_some_iff.mp stepped
      cases same
      obtain ⟨uses, later⟩ := LiveFetch.step_uses tidy advanced
      refine ⟨uses, fun going same => ?_⟩
      obtain ⟨fetch, present, rfl⟩ := Option.map_eq_some_iff.mp same
      exact later fetch present
  | deletion pending =>
      obtain ⟨⟨after, _⟩, advanced, same⟩ := Option.map_eq_some_iff.mp stepped
      cases same
      refine ⟨.keeps (Deletion.step_plain advanced) ?_ ?_,
        fun going same => ?_⟩
      · cases after <;> rfl
      · cases after <;> rfl
      · obtain ⟨deletion, _, rfl⟩ := Option.map_eq_some_iff.mp same
        trivial
  | start pending =>
      obtain ⟨⟨after, _⟩, advanced, same⟩ := Option.map_eq_some_iff.mp stepped
      cases same
      refine ⟨.keeps (Start.step_plain advanced) ?_ ?_, fun going same => ?_⟩
      · cases after <;> rfl
      · cases after <;> rfl
      · obtain ⟨start, _, rfl⟩ := Option.map_eq_some_iff.mp same
        trivial

end Steps

end ChartLocker.Warm
