import ChartLocker.Config.Coherence
import ChartLocker.Style.Survival

/-!
# Refreshing a learned style

`ensure_style_learned` and `fetch_and_learn` with their return values, over
the configuration machine whose learn tasks are the calls of `learn_style`.
Other calls, other learns and everything else in the service may run between
two steps of a call.
-/

namespace ChartLocker.Config

open Library Cache Catalog

variable {Document : Type}

/-- The await points of a call in front of `learn_style`; a generation is the
one which `fetch_and_learn` has loaded. -/
inductive CallPhase where
  /-- `ensure_style_learned` found nothing fresh. -/
  | called
  /-- `inflight_lock` -/
  | asking (generation : Nat)
  /-- `flight.lock().await` -/
  | queued (generation : Nat)
  | learning (generation : Nat)
  | returned (learned : Bool)
deriving DecidableEq, Repr

structure Call where
  source : String
  phase : CallPhase
deriving DecidableEq, Repr

/-- The service with the calls of `ensure_style_learned`; the learn task of a
call has its id. -/
structure Refreshes (Document : Type) where
  app : AppState Document
  calls : Nat → Option Call

namespace Refreshes

variable (Document)

inductive Label where
  | ensureStyleLearned (id : Nat) (source : String) (now : Int)
  | fetchAndLearn (id : Nat) (now : Int)
  | inflightLock (id : Nat) (granted : Bool)
  | enter (id : Nat) (now : Int)
  | app (label : Config.Label Document)

variable {Document}

section Step

variable (env : Environment Document)

/-- Whether the call of `learn_style` returns at this step, and whether with a
document. -/
def learnReturns (state : AppState Document) :
    Config.Label Document → Option Bool
  | .learnResolve id =>
      match state.tasks id with
      | some (.learn source _ .resolving) =>
          match state.sources.lookup source with
          | some definition =>
              match definition.upstream with
              | .style styleUrl hosts =>
                  if env.styleUrlAllowed styleUrl hosts
                      env.allowPrivateEgress then
                    none
                  else
                    some false
              | _ => some false
          | none => some false
      | _ => none
  | .learnAnswer id answer =>
      match state.tasks id with
      | some (.learn _ _ (.fetching definition current)) =>
          match answer with
          | .failed => some current.isSome
          | .notModified => none
          | .document style tilejson _ =>
              match env.learnContent (allowedHosts definition) style
                  tilejson with
              | some _ => none
              | none => some false
      | _ => none
  | .learnCommit id _ =>
      match state.tasks id, state.configUpdate with
      | some (.learn source generation (.refreshing _)), none =>
          if state.configGeneration = generation then
            match state.currentStyle source generation with
            | some _ => none
            | none => some false
          else
            some false
      | some (.learn source generation (.committing _ _ _ _)), none =>
          if state.configGeneration = generation then
            if (state.styleState.lookup source).isNone ∧
                maxLearnedStyleEntries ≤ state.styleState.rows.length then
              some false
            else
              none
          else
            some false
      | _, _ => none
  | .learnPersist id =>
      match state.tasks id with
      | some (.learn source _ (.persisting style)) =>
          match (state.sources.lookup source).bind env.sourceSignature with
          | some _ =>
              if env.encodedLength (PersistedStyleState.fromLive style) ≤
                  maxPersistedStyleBytes then
                none
              else
                some true
          | none => some true
      | _ => none
  | .learnFinish id =>
      match state.tasks id, state.jobs id with
      | some (.learn _ _ .storing), some (.finished _) => some true
      | _, _ => none
  | _ => none

def setCall (state : Refreshes Document) (id : Nat) (call : Call) :
    Refreshes Document :=
  { state with calls := Function.update state.calls id (some call) }

/-- `learn_style` is called under the flight. -/
def startLearn (state : Refreshes Document) (id : Nat) (source : String)
    (generation : Nat) : Refreshes Document where
  app := state.app.toLearnPhase id source generation .resolving
  calls := (state.setCall id ⟨source, .learning generation⟩).calls

/-- `fresh_learned_document` is found. -/
def fresh (state : Refreshes Document) (source : String) (generation : Nat)
    (now : Int) : Bool :=
  (state.app.freshStyle env source generation now).isSome

/-- The call to which the step of its learn task returns. -/
def returning (state : Refreshes Document) (label : Config.Label Document) :
    Option (Nat × String × Bool) := do
  let id ← label.owner
  let call ← state.calls id
  let learned ← learnReturns env state.app label
  match call.phase with
  | .learning _ => some (id, call.source, learned)
  | _ => none

/-- A learn begins through its call only. -/
def beginsLearn : Config.Label Document → Bool
  | .learnRequest _ _ _ => true
  | _ => false

/-- The state after a step of the service. -/
def settle (state : Refreshes Document) (label : Config.Label Document)
    (app : AppState Document) : Refreshes Document :=
  match state.returning env label with
  | some (id, source, learned) =>
      { state with app }.setCall id ⟨source, .returned learned⟩
  | none => { state with app }

def step (state : Refreshes Document) :
    Label Document → Option (Refreshes Document)
  | .ensureStyleLearned id source now =>
      if (state.calls id).isNone then
        some (state.setCall id ⟨source,
          if state.fresh env source state.app.configGeneration now then
            .returned true
          else .called⟩)
      else none
  | .fetchAndLearn id now =>
      match state.calls id with
      | some ⟨source, .called⟩ =>
          let generation := state.app.configGeneration
          some (state.setCall id ⟨source,
            if generation % 2 ≠ 0 then .returned false
            else if state.fresh env source generation now then .returned true
            else .asking generation⟩)
      | _ => none
  | .inflightLock id granted =>
      match state.calls id with
      | some ⟨source, .asking generation⟩ =>
          some (state.setCall id ⟨source,
            if granted then .queued generation else .returned false⟩)
      | _ => none
  | .enter id now =>
      match state.calls id with
      | some ⟨source, .queued generation⟩ =>
          if state.fresh env source generation now then
            some (state.setCall id ⟨source, .returned true⟩)
          else if (state.app.tasks id).isNone ∧
              (state.app.jobs id).isNone then
            some (state.startLearn id source generation)
          else none
      | _ => none
  | .app label =>
      if beginsLearn label then none
      else (Config.step env state.app label).map (state.settle env label)

end Step

end Refreshes

/-- The calls over a service which has been running. -/
def refreshMachine (env : Environment Document) :
    Machine (Refreshes Document) (Refreshes.Label Document) where
  initial state := (configMachine env).Reachable state.app ∧
    ∀ id, state.calls id = none
  step := Refreshes.step env

/-! ## Learn tasks -/

section Learns

variable {env : Environment Document} {state next : AppState Document}
  {label : Label Document} {id : Nat} {source : String} {generation : Nat}

/-- The checks of `learn_style` have passed the content. -/
def AcceptedContent (env : Environment Document)
    (content : StyleContent Document) : Prop :=
  ∃ definition style tilejson,
    env.learnContent (allowedHosts definition) style tilejson = some content

/-- The locals which a learn has gained on the way to a phase. -/
def LearnPhase.Gains (env : Environment Document) (state : AppState Document)
    (source : String) (generation : Nat) :
    LearnPhase Document → Prop
  | .fetching _ current => current = state.currentStyle source generation
  | .committing _ _ content _ => AcceptedContent env content
  | _ => True

/-- A learn task has begun at this step, or goes on with what it had. -/
theorem learn_own {phase : LearnPhase Document}
    (stepped : step env state label = some next)
    (owner : label.owner = some id)
    (running : next.tasks id = some (.learn source generation phase)) :
    (∃ now, label = .learnRequest id source now) ∨
      ∃ earlier, state.tasks id = some (.learn source generation earlier) ∧
        (earlier = phase ∨ phase.Gains env state source generation) := by
  cases label with
  | boot | scrollTtl | cacheCall => cases owner
  | learnRequest other source now =>
      cases owner
      simp only [step, learnRequest] at stepped
      split at stepped
      · cases stepped
        cases (Function.update_self _ _ _).symm.trans running
        exact .inl ⟨now, rfl⟩
      · contradiction
  | learnExisting other =>
      cases owner
      simp only [step, learnExisting] at stepped
      split at stepped
      · next task =>
        cases stepped
        cases (Function.update_self _ _ _).symm.trans running
        exact .inr ⟨_, task, .inr rfl⟩
      · contradiction
  | learnAnswer other answer =>
      cases owner
      simp only [step, learnAnswer] at stepped
      split at stepped
      · next task =>
        split at stepped
        · cases stepped
          cases (Function.update_self _ _ _).symm.trans running
        · cases stepped
          cases (Function.update_self _ _ _).symm.trans running
          exact .inr ⟨_, task, .inr trivial⟩
        · split at stepped
          · next accepted =>
            cases stepped
            cases (Function.update_self _ _ _).symm.trans running
            exact .inr ⟨_, task, .inr ⟨_, _, _, accepted⟩⟩
          · cases stepped
            cases (Function.update_self _ _ _).symm.trans running
      · contradiction
  | runJob other outcome =>
      cases owner
      simp only [step, runJob] at stepped
      split at stepped
      · cases stepped
        rw [perform_eq] at running
        exact .inr ⟨phase, running, .inl rfl⟩
      · contradiction
  | learnResolve other =>
      cases owner
      simp only [step, learnResolve] at stepped
      split at stepped
      · next task =>
        repeat' split at stepped
        all_goals
          cases stepped
          cases (Function.update_self _ _ _).symm.trans running
        exact .inr ⟨_, task, .inr trivial⟩
      · contradiction
  | learnCommit other now =>
      cases owner
      simp only [step, learnCommit] at stepped
      split at stepped
      · next task free =>
        repeat' split at stepped
        all_goals
          cases stepped
          cases (Function.update_self _ _ _).symm.trans running
        exact .inr ⟨_, task, .inr trivial⟩
      · next task free =>
        repeat' split at stepped
        all_goals
          cases stepped
          cases (Function.update_self _ _ _).symm.trans running
        exact .inr ⟨_, task, .inr trivial⟩
      · contradiction
  | learnPersist other =>
      cases owner
      simp only [step, learnPersist] at stepped
      split at stepped
      · next task =>
        repeat' split at stepped
        all_goals
          cases stepped
          cases (Function.update_self _ _ _).symm.trans running
        exact .inr ⟨_, task, .inr trivial⟩
      · contradiction
  | _ =>
      cases owner
      simp only [step, configRequest, configBegin, configSources,
        configReconcile, configResume, configInstall, configPublish,
        learnFinish, lockHolder, unlockHolder, dropTask] at stepped
      repeat' split at stepped
      all_goals first
        | contradiction
        | (cases stepped
           cases (Function.update_self _ _ _).symm.trans running)

/-- Every content which waits for its commit has passed the checks. -/
def Accepting (env : Environment Document) (state : AppState Document) :
    Prop :=
  ∀ id source generation definition current content validator,
    state.tasks id = some (.learn source generation
      (.committing definition current content validator)) →
    AcceptedContent env content

theorem Accepting.step (accepting : Accepting env state)
    (stepped : step env state label = some next) : Accepting env next := by
  intro id source generation definition current content validator running
  by_cases boots : ∃ deferred, label = .boot deferred
  · obtain ⟨deferred, rfl⟩ := boots
    cases stepped
    cases running
  have started : ∀ deferred, label ≠ .boot deferred :=
    fun deferred same => boots ⟨deferred, same⟩
  by_cases owner : label.owner = some id
  · rcases learn_own stepped owner running with ⟨now, rfl⟩ |
      ⟨earlier, task, rfl | gained⟩
    · simp only [Config.step, learnRequest] at stepped
      split at stepped
      · cases stepped
        cases (Function.update_self _ _ _).symm.trans running
      · contradiction
    · exact accepting _ _ _ _ _ _ _ task
    · exact gained
  · rw [(beside_of_step stepped started).tasks id owner] at running
    exact accepting _ _ _ _ _ _ _ running

theorem accepting_of_reachable
    (reached : (configMachine env).Reachable state) :
    Accepting env state := by
  apply reached.invariant
  · rintro first rfl id source generation definition current content
      validator running
    cases running
  · intro before step after accepting stepped
    exact accepting.step stepped

/-! ## Steps without a push -/

/-- The step is not one of a configuration push, nor a new process. -/
def Label.quiet : Label Document → Bool
  | .configRequest _ _ | .configBegin _ | .configSources _
  | .configReconcile _ | .configResume _ | .configInstall _
  | .configPublish _ | .boot _ => false
  | _ => true

theorem Label.started_of_quiet (quiet : label.quiet = true)
    (deferred : Bool) : label ≠ .boot deferred := by
  rintro rfl
  cases quiet

theorem generation_of_quiet (quiet : label.quiet = true)
    (stepped : step env state label = some next) :
    next.configGeneration = state.configGeneration := by
  cases label with
  | configRequest | configBegin | configSources | configReconcile
  | configResume | configInstall | configPublish | boot => cases quiet
  | scrollTtl ttl =>
      cases stepped
      simp only [setScrollTtl]
      split <;> rfl
  | cacheCall op =>
      cases stepped
      rfl
  | runJob id outcome =>
      simp only [step, runJob] at stepped
      split at stepped
      · cases stepped
        rw [perform_eq]
        rfl
      · contradiction
  | _ =>
      simp only [step, learnRequest, learnResolve, learnExisting, learnAnswer,
        learnCommit, learnPersist, learnFinish, lockHolder, unlockHolder,
        dropTask] at stepped
      repeat' split at stepped
      all_goals first
        | contradiction
        | (cases stepped; rfl)

/-- An entry goes on to be valid, as it is, refreshed, or replaced by one
whose content was accepted. -/
theorem currentStyle_of_quiet (accepting : Accepting env state)
    (quiet : label.quiet = true)
    (stepped : step env state label = some next)
    {style : StyleState Document}
    (found : state.currentStyle source state.configGeneration =
      some style) :
    ∃ kept, next.currentStyle source state.configGeneration = some kept ∧
      (kept.content = style.content ∨ AcceptedContent env kept.content) := by
  by_cases commits : ∃ id now, label = .learnCommit id now
  · obtain ⟨id, now, rfl⟩ := commits
    have replaced : ∀ (entry : StyleState Document) definition renewed,
        next = installStyle env state id entry state.configGeneration
          definition renewed →
        entry.configGeneration = state.configGeneration →
        (entry.source = source → entry.content = style.content ∨
          AcceptedContent env entry.content) →
        ∃ kept, next.currentStyle source state.configGeneration =
            some kept ∧
          (kept.content = style.content ∨
            AcceptedContent env kept.content) := by
      rintro entry definition renewed rfl valid content
      have lookup : (installStyle env state id entry state.configGeneration
          definition renewed).currentStyle source state.configGeneration =
            ((state.styleState.insertOrReplace entry).lookup source).filter
              fun kept => decide
                (kept.configGeneration = state.configGeneration) := rfl
      rw [lookup, KeyedTable.lookup_insertOrReplace]
      by_cases same : source = entry.source
      · rw [if_pos same, Option.filter_some, if_pos (decide_eq_true valid)]
        exact ⟨entry, rfl, content same.symm⟩
      · rw [if_neg same]
        exact ⟨style, found, .inl rfl⟩
    rcases commit_cases stepped with rfl | ⟨other, definition, existing, _,
      current, installed⟩ | ⟨other, definition, current, content, validator,
      task, installed⟩
    · exact ⟨style, found, .inl rfl⟩
    · refine replaced _ _ _ installed ?_ fun same => ?_
      · exact of_decide_eq_true
          (Option.filter_eq_some_iff.mp current).2
      · obtain rfl : other = source := same
        obtain rfl : existing = style :=
          Option.some.inj (current.symm.trans found)
        exact .inl rfl
    · exact replaced _ _ _ installed rfl fun _ =>
        .inr (accepting _ _ _ _ _ _ _ task)
  · have entries := entries_of_step stepped (Label.started_of_quiet quiet)
      (fun id now same => commits ⟨id, now, same⟩) (by
        rintro id rfl
        cases quiet)
    refine ⟨style, ?_, .inl rfl⟩
    unfold AppState.currentStyle
    rw [entries]
    exact found

end Learns

/-! ## Calls for an installed style -/

/-- The generation which a call has loaded and may still use. -/
def CallPhase.captured : CallPhase → Option Nat
  | .asking generation | .queued generation | .learning generation =>
      some generation
  | .called | .returned _ => none

/-- A learn of an installed style has found its entry. -/
def Task.refreshes (source : String) (generation : Nat) :
    Task Document → Prop
  | .learn wanted captured phase =>
      wanted = source ∧ captured = generation ∧
        ∀ definition current, phase = .fetching definition current →
          current.isSome
  | _ => True

namespace Refreshes

def Label.quiet : Label Document → Bool
  | .app label => label.quiet
  | _ => true

/-- The style of a source stays installed, and the calls for it which began
late enough run under its generation. -/
structure Held (env : Environment Document) (source : String)
    (generation : Nat) (content : StyleContent Document)
    (late : Nat → Prop) (state : Refreshes Document) : Prop where
  current : state.app.configGeneration = generation
  installed : ∃ kept, state.app.currentStyle source generation = some kept ∧
    (kept.content = content ∨ AcceptedContent env kept.content)
  accepting : Accepting env state.app
  captured : ∀ id phase, late id → state.calls id = some ⟨source, phase⟩ →
    ∀ loaded ∈ phase.captured, loaded = generation
  tasks : ∀ id loaded, late id →
    state.calls id = some ⟨source, .learning loaded⟩ →
      ∀ task, state.app.tasks id = some task →
        task.refreshes source generation

section Held

variable {env : Environment Document} {source : String} {generation : Nat}
  {content : StyleContent Document} {late : Nat → Prop}
  {state next : Refreshes Document} {id : Nat}

theorem calls_setCall (call : Call) (other : Nat) :
    (state.setCall id call).calls other =
      if other = id then some call else state.calls other :=
  Function.update_apply _ _ _ _

theorem Held.setCall (held : Held env source generation content late state)
    {call : Call} (captured : late id → call.source = source →
      ∀ loaded ∈ call.phase.captured, loaded = generation)
    (begins : ∀ loaded, call.phase ≠ .learning loaded) :
    Held env source generation content late (state.setCall id call) := by
  refine ⟨held.current, held.installed, held.accepting, ?_, ?_⟩
  · intro other phase begun found loaded
    rw [calls_setCall] at found
    split at found
    · next same =>
      obtain rfl := Option.some.inj found
      exact captured (same ▸ begun) rfl loaded
    · exact held.captured other phase begun found loaded
  · intro other loaded begun found task running
    rw [calls_setCall] at found
    split at found
    · obtain rfl := Option.some.inj found
      exact absurd rfl (begins loaded)
    · exact held.tasks other loaded begun found task running

theorem app_cases {label : Config.Label Document}
    (stepped : state.step env (.app label) = some next) :
    (∀ id source now, label ≠ .learnRequest id source now) ∧
      ∃ app, Config.step env state.app label = some app ∧
        next = state.settle env label app := by
  simp only [step] at stepped
  split at stepped
  · contradiction
  · next other =>
    obtain ⟨app, moved, same⟩ := Option.map_eq_some_iff.mp stepped
    refine ⟨?_, app, moved, same.symm⟩
    rintro id source now rfl
    exact other rfl

/-- A step of the service leaves a call as it is, or ends it. -/
theorem calls_settle (label : Config.Label Document)
    (app : AppState Document) (other : Nat) :
    (state.settle env label app).calls other = state.calls other ∨
      ∃ source learned, state.returning env label =
          some (other, source, learned) ∧
        (state.settle env label app).calls other =
          some ⟨source, .returned learned⟩ := by
  unfold settle
  cases returns : state.returning env label with
  | none => exact .inl rfl
  | some found =>
      obtain ⟨id, source, learned⟩ := found
      dsimp only
      rw [calls_setCall]
      by_cases same : other = id
      · rw [if_pos same, same]
        exact .inr ⟨source, learned, rfl, rfl⟩
      · rw [if_neg same]
        exact .inl rfl

@[simp] theorem app_settle (label : Config.Label Document)
    (app : AppState Document) :
    (state.settle env label app).app = app := by
  unfold settle
  split <;> rfl

/-- The task of a call for the style keeps its source and generation, and
finds the entry when it reads the map. -/
theorem Held.tasks_app (held : Held env source generation content late state)
    {label : Config.Label Document} {app : AppState Document}
    (quiet : label.quiet = true)
    (begins : ∀ id source now, label ≠ .learnRequest id source now)
    (moved : Config.step env state.app label = some app) {loaded : Nat}
    (begun : late id)
    (call : state.calls id = some ⟨source, .learning loaded⟩)
    {task : Task Document} (running : app.tasks id = some task) :
    task.refreshes source generation := by
  by_cases owner : label.owner = some id
  · cases task with
    | config | holder => trivial
    | learn wanted captured phase =>
        rcases learn_own moved owner running with ⟨now, same⟩ |
          ⟨earlier, task, same | gained⟩
        · exact absurd same (begins id wanted now)
        · subst same
          exact held.tasks id loaded begun call _ task
        · obtain ⟨rfl, rfl, _⟩ := held.tasks id loaded begun call _ task
          refine ⟨rfl, rfl, ?_⟩
          rintro definition current rfl
          obtain ⟨kept, found, _⟩ := held.installed
          have read : current = _ := gained
          rw [read, found]
          rfl
  · rw [(beside_of_step moved (Label.started_of_quiet quiet)).tasks id
      owner] at running
    exact held.tasks id loaded begun call task running

theorem Held.app (held : Held env source generation content late state)
    {label : Config.Label Document} (quiet : label.quiet = true)
    (stepped : state.step env (.app label) = some next) :
    Held env source generation content late next := by
  obtain ⟨begins, app, moved, rfl⟩ := app_cases stepped
  have unchanged : ∀ other phase, late other →
      (state.settle env label app).calls other = some ⟨source, phase⟩ →
      state.calls other = some ⟨source, phase⟩ ∨
        ∃ learned, phase = .returned learned := by
    intro other phase begun found
    rcases calls_settle label app other with same | ⟨wanted, learned, _,
      ended⟩
    · exact .inl (same.symm.trans found)
    · cases ended.symm.trans found
      exact .inr ⟨learned, rfl⟩
  refine ⟨?_, ?_, ?_, ?_, ?_⟩
  · rw [app_settle, generation_of_quiet quiet moved, held.current]
  · obtain ⟨kept, found, origin⟩ := held.installed
    have current : state.app.currentStyle source
        state.app.configGeneration = some kept := by
      rw [held.current]
      exact found
    obtain ⟨later, present, newer⟩ :=
      currentStyle_of_quiet held.accepting quiet moved current
    rw [held.current] at present
    rw [app_settle]
    refine ⟨later, present, ?_⟩
    rcases newer with same | accepted
    · exact origin.imp same.trans fun accepted => same ▸ accepted
    · exact .inr accepted
  · rw [app_settle]
    exact held.accepting.step moved
  · intro other phase begun found loaded
    rcases unchanged other phase begun found with before | ⟨learned, rfl⟩
    · exact held.captured other phase begun before loaded
    · nofun
  · intro other loaded begun found task running
    rw [app_settle] at running
    rcases unchanged other _ begun found with before | ⟨learned, same⟩
    · exact held.tasks_app quiet begins moved begun before running
    · cases same

/-- What a step of a call does, outside `learn_style`. -/
theorem call_cases {label : Label Document}
    (stepped : state.step env label = some next) :
    (∃ inner, label = .app inner) ∨
    (∃ id source now, label = .ensureStyleLearned id source now ∧
      state.calls id = none ∧ next = state.setCall id ⟨source,
        if state.fresh env source state.app.configGeneration now then
          .returned true
        else .called⟩) ∨
    (∃ id source now, label = .fetchAndLearn id now ∧
      state.calls id = some ⟨source, .called⟩ ∧
      next = state.setCall id ⟨source,
        if state.app.configGeneration % 2 ≠ 0 then .returned false
        else if state.fresh env source state.app.configGeneration now then
          .returned true
        else .asking state.app.configGeneration⟩) ∨
    (∃ id source loaded granted, label = .inflightLock id granted ∧
      state.calls id = some ⟨source, .asking loaded⟩ ∧
      next = state.setCall id ⟨source,
        if granted then .queued loaded else .returned false⟩) ∨
    (∃ id source loaded now, label = .enter id now ∧
      state.calls id = some ⟨source, .queued loaded⟩ ∧
      (next = state.setCall id ⟨source, .returned true⟩ ∨
        next = state.startLearn id source loaded)) := by
  cases label with
  | app inner => exact .inl ⟨inner, rfl⟩
  | ensureStyleLearned id source now =>
      simp only [step] at stepped
      split at stepped
      · next unused =>
        exact .inr (.inl ⟨id, source, now, rfl,
          Option.isNone_iff_eq_none.mp unused,
          (Option.some.inj stepped).symm⟩)
      · contradiction
  | fetchAndLearn id now =>
      simp only [step] at stepped
      split at stepped
      · next source found =>
        exact .inr (.inr (.inl ⟨id, source, now, rfl, found,
          (Option.some.inj stepped).symm⟩))
      · contradiction
  | inflightLock id granted =>
      simp only [step] at stepped
      split at stepped
      · next source loaded found =>
        exact .inr (.inr (.inr (.inl ⟨id, source, loaded, granted, rfl,
          found, (Option.some.inj stepped).symm⟩)))
      · contradiction
  | enter id now =>
      simp only [step] at stepped
      split at stepped
      · next source loaded found =>
        refine .inr (.inr (.inr (.inr ⟨id, source, loaded, now, rfl,
          found, ?_⟩)))
        split at stepped
        · exact .inl (Option.some.inj stepped).symm
        · split at stepped
          · exact .inr (Option.some.inj stepped).symm
          · contradiction
      · contradiction

/-- A call which begins its learn has a task without locals. -/
theorem Held.enter (held : Held env source generation content late state)
    {wanted : String} {loaded : Nat}
    (found : state.calls id = some ⟨wanted, .queued loaded⟩) :
    Held env source generation content late
      (state.startLearn id wanted loaded) := by
  have others : ∀ other, other ≠ id →
      (state.app.toLearnPhase id wanted loaded .resolving).tasks other =
        state.app.tasks other :=
    fun other apart => Function.update_of_ne apart _ _
  have own : (state.app.toLearnPhase id wanted loaded .resolving).tasks id =
      some (.learn wanted loaded .resolving) := Function.update_self _ _ _
  refine ⟨held.current, held.installed, ?_, ?_, ?_⟩
  · intro other name captured definition current found validator running
    by_cases same : other = id
    · subst same
      cases own.symm.trans running
    · exact held.accepting _ _ _ _ _ _ _ ((others other same).symm.trans
        running)
  · intro other phase begun call captured among
    rw [startLearn, calls_setCall] at call
    split at call
    · next same =>
      cases call
      exact held.captured id _ (same ▸ begun) found captured among
    · exact held.captured other phase begun call captured among
  · intro other captured begun call task running
    rw [startLearn, calls_setCall] at call
    split at call
    · next same =>
      subst same
      cases call
      cases own.symm.trans running
      refine ⟨rfl, held.captured other _ begun found loaded rfl, ?_⟩
      intro definition current same
      cases same
    · next apart =>
      exact held.tasks other captured begun call task
        ((others other apart).symm.trans running)

theorem Held.step (held : Held env source generation content late state)
    {label : Label Document} (quiet : label.quiet = true)
    (stepped : state.step env label = some next) :
    Held env source generation content late next := by
  rcases call_cases stepped with ⟨inner, rfl⟩ |
    ⟨id, wanted, now, _, _, rfl⟩ | ⟨id, wanted, now, _, _, rfl⟩ |
    ⟨id, wanted, loaded, granted, _, found, rfl⟩ |
    ⟨id, wanted, loaded, now, _, found, rfl | rfl⟩
  · exact held.app quiet stepped
  · apply held.setCall
    · intro _ _ loaded among
      split at among <;> cases among
    · intro loaded begins
      split at begins <;> cases begins
  · apply held.setCall
    · intro _ _ loaded among
      split at among
      · cases among
      · split at among
        · cases among
        · obtain rfl := Option.some.inj among
          exact held.current
    · intro loaded begins
      split at begins
      · cases begins
      · split at begins <;> cases begins
  · apply held.setCall
    · rintro begun rfl captured among
      split at among
      · exact held.captured id _ begun found captured among
      · cases among
    · intro captured begins
      split at begins <;> cases begins
  · exact held.setCall (fun _ _ loaded among => by cases among)
      (fun loaded begins => by cases begins)
  · exact held.enter found

end Held

/-! ## What a call returns -/

/-- Every late call for the source which has returned has a style. -/
def Answered (source : String) (late : Nat → Prop)
    (state : Refreshes Document) : Prop :=
  ∀ id learned, late id →
    state.calls id = some ⟨source, .returned learned⟩ → learned = true

/-- The catalog names the source as a style at an allowed address. -/
def Named (env : Environment Document) (app : AppState Document)
    (source : String) : Prop :=
  ∃ definition styleUrl hosts, app.sources.lookup source = some definition ∧
    definition.upstream = .style styleUrl hosts ∧
    env.styleUrlAllowed styleUrl hosts env.allowPrivateEgress = true

/-- The upstream of a learn sends no document which the checks reject, its
TileJSON answers included. -/
def Accepts (env : Environment Document) (app : AppState Document)
    (source : String) : Config.Label Document → Prop
  | .learnResolve _ => Named env app source
  | .learnAnswer id (.document style tilejson _) =>
      ∀ wanted generation definition current,
        app.tasks id = some (.learn wanted generation
          (.fetching definition current)) →
        (env.learnContent (allowedHosts definition) style
          tilejson).isSome = true
  | _ => True

/-- The condition on a step under which a late call for an installed style
does not return without it. -/
def Keeps (env : Environment Document) (source : String) (late : Nat → Prop)
    (state : Refreshes Document) : Label Document → Prop
  | .fetchAndLearn id _ => late id →
      state.calls id = some ⟨source, .called⟩ →
        state.app.configGeneration % 2 = 0
  | .inflightLock id granted => ∀ loaded, late id →
      state.calls id = some ⟨source, .asking loaded⟩ → granted = true
  | .app label => ∀ id loaded, label.owner = some id → late id →
      state.calls id = some ⟨source, .learning loaded⟩ →
        Accepts env state.app source label
  | _ => True

section Answers

variable {env : Environment Document} {source : String} {generation : Nat}
  {content : StyleContent Document} {late : Nat → Prop}
  {state next : Refreshes Document} {id : Nat}

/-- `learn_style` returns nothing exactly at the steps which do not accept. -/
theorem learnReturns_false_iff {app moved : AppState Document}
    {label : Config.Label Document}
    (stepped : Config.step env app label = some moved)
    (owner : label.owner = some id)
    (generationIs : app.configGeneration = generation)
    {kept : StyleState Document}
    (installed : app.currentStyle source generation = some kept)
    (refreshes : ∀ task, app.tasks id = some task →
      task.refreshes source generation) :
    learnReturns env app label = some false ↔
      ¬ Accepts env app source label := by
  have present : app.styleState.lookup source = some kept :=
    (Option.filter_eq_some_iff.mp installed).1
  cases label with
  | learnResolve other =>
      cases owner
      simp only [Config.step, learnResolve] at stepped
      split at stepped
      · next wanted captured task =>
        obtain ⟨rfl, rfl, _⟩ := refreshes _ task
        simp only [learnReturns, task, Accepts, Named]
        cases found : app.sources.lookup wanted with
        | none => simp
        | some definition =>
            dsimp only
            cases upstream : definition.upstream with
            | style styleUrl hosts =>
                dsimp only
                cases allowed : env.styleUrlAllowed styleUrl hosts
                    env.allowPrivateEgress with
                | true => simp [upstream, allowed]
                | false => simp [upstream, allowed]
            | _ => simp [upstream]
      · contradiction
  | learnAnswer other answer =>
      cases owner
      simp only [Config.step, learnAnswer] at stepped
      split at stepped
      · next wanted captured definition current task =>
        obtain ⟨rfl, rfl, found⟩ := refreshes _ task
        have entry := found definition current rfl
        cases answer with
        | failed => simp [learnReturns, task, Accepts, entry]
        | notModified => simp [learnReturns, task, Accepts]
        | document style tilejson validator =>
            simp only [learnReturns, task, Accepts]
            cases accepted : env.learnContent (allowedHosts definition) style
                tilejson with
            | some found =>
                refine iff_of_false (by intro same; cases same) (not_not.mpr ?_)
                intro _ _ other _ same
                cases same
                rw [accepted]
                rfl
            | none =>
                refine iff_of_true rfl fun all => ?_
                have passed := all _ _ _ _ rfl
                rw [accepted] at passed
                cases passed
      · contradiction
  | learnCommit other now =>
      cases owner
      have accepts : Accepts env app source (.learnCommit id now) := trivial
      refine iff_of_false ?_ (not_not.mpr accepts)
      intro returns
      simp only [learnReturns] at returns
      split at returns
      · next wanted captured definition task free =>
        obtain ⟨rfl, rfl, _⟩ := refreshes _ task
        simp [generationIs, installed] at returns
      · next wanted captured _ _ _ _ task free =>
        obtain ⟨rfl, rfl, _⟩ := refreshes _ task
        simp [generationIs, present] at returns
      · cases returns
  | learnPersist other =>
      refine iff_of_false ?_ (not_not.mpr trivial)
      intro returns
      simp only [learnReturns] at returns
      repeat' split at returns
      all_goals cases returns
  | learnFinish other =>
      refine iff_of_false ?_ (not_not.mpr trivial)
      intro returns
      simp only [learnReturns] at returns
      split at returns <;> cases returns
  | _ => exact iff_of_false (by intro same; cases same) (not_not.mpr trivial)

/-- `learn_style` returns exactly when its task ends. -/
theorem learnReturns_isSome_iff {app moved : AppState Document}
    {label : Config.Label Document} {wanted : String} {captured : Nat}
    {phase : LearnPhase Document}
    (stepped : Config.step env app label = some moved)
    (owner : label.owner = some id)
    (task : app.tasks id = some (.learn wanted captured phase))
    (kept : label ≠ .drop id) :
    (learnReturns env app label).isSome = true ↔ moved.tasks id = none := by
  have ended : ∀ (state : AppState Document), (state.finish id).tasks id =
      none := fun state => Function.update_self _ _ _
  have goes : ∀ (state : AppState Document) task,
      (state.setTask id (some task)).tasks id = some task :=
    fun state task => Function.update_self _ _ _
  cases label with
  | boot | scrollTtl | cacheCall => cases owner
  | drop other =>
      cases owner
      exact absurd rfl kept
  | runJob other outcome =>
      cases owner
      simp only [Config.step, runJob] at stepped
      split at stepped
      · cases stepped
        rw [perform_eq]
        exact iff_of_false (by intro same; cases same) fun gone => by
          cases task.symm.trans gone
      · contradiction
  | learnCommit other now =>
      cases owner
      simp only [Config.step, learnCommit, task] at stepped
      simp only [learnReturns, task]
      repeat' split at stepped
      all_goals first
        | contradiction
        | (cases stepped
           simp_all [installStyle, AppState.toLearnPhase])
  | learnPersist other =>
      cases owner
      simp only [Config.step, learnPersist, task] at stepped
      simp only [learnReturns, task]
      cases phase with
      | persisting style =>
          dsimp only at stepped ⊢
          cases signed : (app.sources.lookup wanted).bind
              env.sourceSignature with
          | none =>
              rw [signed] at stepped
              cases stepped
              exact iff_of_true rfl (ended app)
          | some signature =>
              rw [signed] at stepped
              dsimp only at stepped ⊢
              split at stepped
              · next fits =>
                cases stepped
                rw [if_pos fits]
                refine iff_of_false (by intro same; cases same) fun gone => ?_
                cases (goes app _).symm.trans gone
              · next long =>
                cases stepped
                rw [if_neg long]
                exact iff_of_true rfl (ended app)
      | _ => cases stepped
  | _ =>
      cases owner
      simp only [Config.step, configRequest, configBegin, configSources,
        configReconcile, configResume, configInstall, configPublish,
        learnRequest, learnResolve, learnExisting, learnAnswer,
        learnFinish, lockHolder, unlockHolder, task] at stepped
      repeat' split at stepped
      all_goals first
        | contradiction
        | (cases stepped
           simp_all [learnReturns, AppState.toLearnPhase])

/-- A call which has not returned gets a new phase. -/
theorem answered_setCall {call : Call}
    (open_ : ∀ learned, state.calls id ≠ some ⟨source, .returned learned⟩) :
    Answered source late (state.setCall id call) ↔
      Answered source late state ∧
        (late id → call.source = source → call.phase ≠ .returned false) := by
  constructor
  · intro answered
    refine ⟨fun other learned begun found => ?_, ?_⟩
    · apply answered other learned begun
      rw [calls_setCall, if_neg]
      · exact found
      · rintro rfl
        exact open_ learned found
    · rintro begun rfl phase
      have returned := answered id false begun
        (by rw [calls_setCall, if_pos rfl, ← phase])
      cases returned
  · rintro ⟨answered, own⟩ other learned begun found
    rw [calls_setCall] at found
    split at found
    · next same =>
      obtain rfl := Option.some.inj found
      have kept := own (same ▸ begun) rfl
      cases learned with
      | true => rfl
      | false => exact absurd rfl kept
    · exact answered other learned begun found

theorem returning_eq_some {label : Config.Label Document} {wanted : String}
    {learned : Bool} :
    state.returning env label = some (id, wanted, learned) ↔
      label.owner = some id ∧
        (∃ loaded, state.calls id = some ⟨wanted, .learning loaded⟩) ∧
        learnReturns env state.app label = some learned := by
  constructor
  · intro returns
    obtain ⟨other, owner, returns⟩ := Option.bind_eq_some_iff.mp returns
    obtain ⟨call, found, returns⟩ := Option.bind_eq_some_iff.mp returns
    obtain ⟨answer, answered, returns⟩ := Option.bind_eq_some_iff.mp returns
    split at returns
    · next loaded phase =>
      cases returns
      refine ⟨owner, ⟨loaded, ?_⟩, answered⟩
      rw [found, ← phase]
    · cases returns
  · rintro ⟨owner, ⟨loaded, found⟩, answered⟩
    simp [returning, owner, found, answered]

/-- A step of the service answers a late call without a style exactly if it
does not accept. -/
theorem answered_app
    (held : Held env source generation content late state)
    {label : Config.Label Document} {app : AppState Document}
    (moved : Config.step env state.app label = some app) :
    Answered source late (state.settle env label app) ↔
      Answered source late state ∧
        Keeps env source late state (.app label) := by
  obtain ⟨kept, installed, _⟩ := held.installed
  have exact : ∀ id loaded, label.owner = some id → late id →
      state.calls id = some ⟨source, .learning loaded⟩ →
      (learnReturns env state.app label = some false ↔
        ¬ Accepts env state.app source label) :=
    fun id loaded owner begun found =>
      learnReturns_false_iff moved owner held.current installed
        (held.tasks id loaded begun found)
  cases returns : state.returning env label with
  | none =>
      have same : state.settle env label app = { state with app } := by
        simp [settle, returns]
      have keeps : Keeps env source late state (.app label) := by
        intro id loaded owner begun found
        by_contra rejects
        have answered := (exact id loaded owner begun found).mpr rejects
        have some : state.returning env label = some (id, source, false) :=
          returning_eq_some.mpr ⟨owner, ⟨loaded, found⟩, answered⟩
        cases returns.symm.trans some
      rw [same]
      exact (and_iff_left keeps).symm
  | some answer =>
      obtain ⟨id, wanted, learned⟩ := answer
      obtain ⟨owner, ⟨loaded, found⟩, answered⟩ :=
        returning_eq_some.mp returns
      have same : state.settle env label app =
          { state with app }.setCall id ⟨wanted, .returned learned⟩ := by
        simp [settle, returns]
      have open_ : ∀ learned, ({ state with app } :
          Refreshes Document).calls id ≠
            some ⟨source, .returned learned⟩ := by
        intro learned returned
        cases found.symm.trans returned
      rw [same, answered_setCall open_]
      apply and_congr Iff.rfl
      constructor
      · intro own other captured owned begun call
        obtain rfl : id = other := Option.some.inj (owner.symm.trans owned)
        cases found.symm.trans call
        by_contra rejects
        have fails := (exact id _ owner begun found).mpr rejects
        cases answered.symm.trans fails
        exact own begun rfl rfl
      · rintro keeps begun rfl phase
        cases phase
        exact (exact id loaded owner begun found).mp answered
          (keeps id loaded owner begun found)

theorem answered_step
    (held : Held env source generation content late state)
    {label : Label Document} (stepped : state.step env label = some next) :
    Answered source late next ↔
      Answered source late state ∧ Keeps env source late state label := by
  rcases call_cases stepped with ⟨inner, rfl⟩ |
    ⟨id, wanted, now, rfl, unused, rfl⟩ | ⟨id, wanted, now, rfl, found, rfl⟩ |
    ⟨id, wanted, loaded, granted, rfl, found, rfl⟩ |
    ⟨id, wanted, loaded, now, rfl, found, moved⟩
  · obtain ⟨_, app, moved, rfl⟩ := app_cases stepped
    exact answered_app held moved
  · rw [answered_setCall (by simp [unused])]
    apply and_congr Iff.rfl
    refine iff_of_true (fun _ _ phase => ?_) trivial
    split at phase <;> cases phase
  · rw [answered_setCall (by simp [found])]
    apply and_congr Iff.rfl
    simp only [Keeps, found, Option.some.injEq, Call.mk.injEq, and_true]
    apply forall_congr'
    intro begun
    apply forall_congr'
    intro same
    by_cases even : state.app.configGeneration % 2 = 0
    · simp only [even, ne_eq, not_true_eq_false, if_false, iff_true]
      split <;> simp
    · simp [even]
  · rw [answered_setCall (by simp [found])]
    apply and_congr Iff.rfl
    cases granted <;> simp [Keeps, found]
  · rcases moved with rfl | rfl
    · rw [answered_setCall (by simp [found])]
      exact and_congr Iff.rfl (iff_of_true (fun _ _ phase => by cases phase)
        trivial)
    · have moved : Answered source late (state.startLearn id wanted loaded) ↔
          Answered source late (state.setCall id
            ⟨wanted, .learning loaded⟩) := Iff.rfl
      rw [moved, answered_setCall (by simp [found])]
      exact and_congr Iff.rfl (iff_of_true (fun _ _ phase => by cases phase)
        trivial)

end Answers

/-! ## Runs -/

section Runs

variable {env : Environment Document} {start finish : Refreshes Document}
  {labels : List (Label Document)} {source : String}
  {style : StyleState Document}

/-- While no configuration push runs, a style which was learned in the
current generation stays installed, with its content or with one that was
accepted.  The calls for it which begin meanwhile all return with a style
exactly if the generation is even, every call is given its flight, the
catalog names the style at an allowed address, and no learn of such a call is
answered with a document which is rejected. -/
theorem refresh_keeps_style_iff
    (reached : (configMachine env).Reachable start.app)
    (learned : start.app.currentStyle source start.app.configGeneration =
      some style)
    (run : (refreshMachine env).exec start labels = some finish)
    (quiet : ∀ label ∈ labels, label.quiet = true) :
    (∃ kept, finish.app.currentStyle source finish.app.configGeneration =
        some kept ∧
      (kept.content = style.content ∨ AcceptedContent env kept.content)) ∧
    ((∀ id answer, start.calls id = none →
        finish.calls id = some ⟨source, .returned answer⟩ → answer = true) ↔
      (refreshMachine env).AllSteps
        (Keeps env source fun id => start.calls id = none) start labels) := by
  have held : Held env source start.app.configGeneration style.content
      (fun id => start.calls id = none) start := by
    refine ⟨rfl, ⟨style, learned, .inl rfl⟩, accepting_of_reachable reached,
      ?_, ?_⟩
    · intro id phase unused found
      cases unused.symm.trans found
    · intro id loaded unused found
      cases unused.symm.trans found
  have all : (refreshMachine env).AllSteps
      (fun _ label => label.quiet = true) start labels :=
    Machine.allSteps_of_labels fun label member _ => quiet label member
  have preserved : ∀ state label next,
      Held env source start.app.configGeneration style.content
        (fun id => start.calls id = none) state →
      Label.quiet label = true →
      (refreshMachine env).step state label = some next →
      Held env source start.app.configGeneration style.content
        (fun id => start.calls id = none) next :=
    fun state label next before still stepped => before.step still stepped
  have along := Machine.allSteps_invariant preserved all held
  constructor
  · have last := Machine.exec_preserves_of_allSteps preserved run all held
    obtain ⟨kept, found, origin⟩ := last.installed
    exact ⟨kept, last.current ▸ found, origin⟩
  · have none : Answered source (fun id => start.calls id = none) start := by
      intro id answer unused found
      cases unused.symm.trans found
    have exact := Machine.exec_iff_allSteps
      (fun state label next given stepped =>
        answered_step given.1 stepped) run along
    exact exact.trans (and_iff_right none)

end Runs

end Refreshes

end ChartLocker.Config

namespace ChartLocker.Style

open Library Catalog Config

/-! ## A refresh after a day -/

/-- A service which has learned a style. -/
def learnedService : List (Config.Label Json) :=
  learning (reliefStyle tiledRelief) ++
    [.learnCommit 2 60, .learnPersist 2, .runJob 2 .ok, .learnFinish 2]

/-- A call of `ensure_style_learned` up to the answer of the upstream. -/
def refreshing (answer : StyleAnswer Json) :
    List (Refreshes.Label Json) :=
  [.ensureStyleLearned 5 "chart" 90000, .fetchAndLearn 5 90000,
    .inflightLock 5 true, .enter 5 90000, .app (.learnResolve 5),
    .app (.learnExisting 5), .app (.learnAnswer 5 answer)]

/-- The relief moved to a TileJSON document. -/
def linkedRelief : Json :=
  .object [("type", .string "raster"),
    ("url", .string "https://tiles.org/relief.json")]

/-- Whether the style is learned before the refresh and installed after it,
and what the call returns. -/
def refreshed (answer : StyleAnswer Json) : Option (Bool × Option Call) :=
  ((configMachine sampleLearner).exec (firstBoot sampleLearner)
    learnedService).bind fun app =>
      ((refreshMachine sampleLearner).exec ⟨app, fun _ => none⟩
        (refreshing answer)).map fun finish =>
          ((app.currentStyle "chart" app.configGeneration).isSome &&
            (finish.app.currentStyle "chart"
              finish.app.configGeneration).isSome, finish.calls 5)

theorem refreshed_rejected :
    refreshed (.document (reliefStyle linkedRelief) (fun _ => none) none) =
      some (true, some ⟨"chart", .returned false⟩) := by
  decide +kernel

theorem refreshed_failed :
    refreshed .failed = some (true, some ⟨"chart", .returned true⟩) := by
  decide +kernel

/-- The new document is fetched, its TileJSON is not, and the call returns
without a style although the old one is installed. -/
theorem refresh_fails_with_style_installed :
    ∃ app finish,
      (configMachine sampleLearner).Reachable app ∧
      (app.currentStyle "chart" app.configGeneration).isSome = true ∧
      (refreshMachine sampleLearner).exec ⟨app, fun _ => none⟩
        (refreshing (.document (reliefStyle linkedRelief) (fun _ => none)
          none)) = some finish ∧
      finish.calls 5 = some ⟨"chart", .returned false⟩ ∧
      (finish.app.currentStyle "chart"
        finish.app.configGeneration).isSome = true := by
  obtain ⟨app, learned, later⟩ :=
    Option.bind_eq_some_iff.mp refreshed_rejected
  obtain ⟨finish, run, outcome⟩ := Option.map_eq_some_iff.mp later
  obtain ⟨installed, returned⟩ := Prod.mk.inj outcome
  obtain ⟨before, after⟩ := Bool.and_eq_true_iff.mp installed
  exact ⟨app, finish, ⟨_, learnedService, rfl, learned⟩, before, run,
    returned, after⟩

/-- A refresh which fails outright is answered with the old style. -/
theorem refresh_keeps_style_offline :
    ∃ app finish,
      (refreshMachine sampleLearner).exec ⟨app, fun _ => none⟩
        (refreshing .failed) = some finish ∧
      finish.calls 5 = some ⟨"chart", .returned true⟩ ∧
      (∃ kept, finish.app.currentStyle "chart" finish.app.configGeneration =
        some kept) ∧
      ((∀ id answer,
          finish.calls id = some ⟨"chart", .returned answer⟩ →
            answer = true) ↔
        (refreshMachine sampleLearner).AllSteps
          (Refreshes.Keeps sampleLearner "chart" fun _ => True)
          ⟨app, fun _ => none⟩ (refreshing .failed)) := by
  obtain ⟨app, learned, later⟩ :=
    Option.bind_eq_some_iff.mp refreshed_failed
  obtain ⟨finish, run, outcome⟩ := Option.map_eq_some_iff.mp later
  obtain ⟨installed, returned⟩ := Prod.mk.inj outcome
  obtain ⟨style, found⟩ := Option.isSome_iff_exists.mp
    (Bool.and_eq_true_iff.mp installed).1
  have quiet : (refreshing .failed).all Refreshes.Label.quiet = true := rfl
  obtain ⟨⟨kept, current, _⟩, exact⟩ := Refreshes.refresh_keeps_style_iff
    ⟨_, learnedService, rfl, learned⟩ found run (List.all_eq_true.mp quiet)
  refine ⟨app, finish, run, returned, ⟨kept, current⟩, ?_⟩
  simpa using exact

end ChartLocker.Style
