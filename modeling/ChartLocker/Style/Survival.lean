import ChartLocker.Config.Generations
import ChartLocker.Style.Durable

/-!
# Learned styles over a push or a restart

The deployment whose learner and whose validator are those of the style
module, and what the next push makes of a style which it has learned.
-/

namespace ChartLocker.Config

open Library Cache Catalog

/-! ## Even namespaces -/

section Even

variable {Document : Type}

def EvenStyle (style : StyleState Document) : Prop :=
  style.generation % 2 = 0

def evenPhase : LearnPhase Document → Prop
  | .fetching _ current => ∀ style, current = some style → EvenStyle style
  | .committing _ current _ _ =>
      ∀ style, current = some style → EvenStyle style
  | .persisting style => EvenStyle style
  | _ => True

def evenTask : Task Document → Prop
  | .learn _ generation phase => generation % 2 = 0 ∧ evenPhase phase
  | .config _ (.deletingInvalid restored) =>
      ∀ style ∈ restored, EvenStyle style
  | .config _ (.installing restored) => ∀ style ∈ restored, EvenStyle style
  | _ => True

/-- Every entry, and every entry on its way, has an even namespace. -/
structure EvenNamespaces (state : AppState Document) : Prop where
  entries : ∀ style ∈ state.styleState.rows, EvenStyle style
  tasks : ∀ id task, state.tasks id = some task → evenTask task

variable {env : Environment Document} {state next : AppState Document}
  {label : Label Document}

theorem EvenNamespaces.update {id : Nat} {task : Option (Task Document)}
    (even : EvenNamespaces state)
    (entries : next.styleState = state.styleState)
    (tasks : next.tasks = Function.update state.tasks id task)
    (moved : ∀ running, task = some running → evenTask running) :
    EvenNamespaces next := by
  refine ⟨entries ▸ even.entries, fun other running found => ?_⟩
  rw [tasks] at found
  by_cases same : other = id
  · subst same
    rw [Function.update_self] at found
    exact moved running found
  · rw [Function.update_of_ne same] at found
    exact even.tasks other running found

theorem EvenNamespaces.learning {id : Nat} {source : String}
    {generation : Nat} {phase : LearnPhase Document}
    (even : EvenNamespaces state)
    (task : state.tasks id = some (.learn source generation phase)) :
    generation % 2 = 0 ∧ evenPhase phase :=
  even.tasks id _ task

theorem EvenNamespaces.currentStyle (even : EvenNamespaces state)
    {source : String} {generation : Nat} {style : StyleState Document}
    (found : state.currentStyle source generation = some style) :
    EvenStyle style :=
  even.entries style (KeyedTable.lookup_eq_some.mp
    (Option.filter_eq_some_iff.mp found).1).1

/-- The validator refuses odd namespaces. -/
def RefusesOdd (env : Environment Document) : Prop :=
  ∀ persisted source allowHttp,
    env.validPersisted persisted source allowHttp = true →
      persisted.generation % 2 = 0

theorem evenStyle_restored (refuses : RefusesOdd env)
    {catalog : List ChartSource} {rows : List (StoredLearnedStyle Document)}
    {published : Nat} :
    ∀ style ∈ (rows.filter (validRetained env catalog)).map
      (fun row => row.state.intoLive row.source published),
      EvenStyle style := by
  intro style member
  obtain ⟨row, kept, rfl⟩ := List.mem_map.mp member
  have valid := (List.mem_filter.mp kept).2
  obtain ⟨source, _, accepted⟩ := Option.any_eq_true _ _ |>.mp valid
  exact refuses _ _ _ accepted

theorem EvenNamespaces.install (even : EvenNamespaces state) {id : Nat}
    {style : StyleState Document} (evenStyle : EvenStyle style)
    (generation : Nat) (definition : ChartSource) (renewed : Bool)
    {source : String} {phase : LearnPhase Document}
    (task : state.tasks id = some (.learn source generation phase)) :
    EvenNamespaces
      (installStyle env state id style generation definition renewed) := by
  have generationEven := (even.tasks id _ task).1
  refine ⟨fun other member => ?_, fun other running found => ?_⟩
  · rcases KeyedTable.mem_insertOrReplace.mp member with rfl | ⟨old, _⟩
    · exact evenStyle
    · exact even.entries other old
  · by_cases same : other = id
    · subst same
      cases (Function.update_self _ _ _).symm.trans found
      exact ⟨generationEven, evenStyle⟩
    · exact even.tasks other running
        ((Function.update_of_ne same _ _).symm.trans found)

theorem EvenNamespaces.learnCommit (even : EvenNamespaces state) {id : Nat}
    {now : Int} (stepped : learnCommit env state id now = some next) :
    EvenNamespaces next := by
  simp only [Config.learnCommit] at stepped
  split at stepped
  · next source generation definition task free =>
    split at stepped
    · split at stepped
      · next existing found =>
        cases stepped
        have existingEven : EvenStyle existing := even.currentStyle found
        have renewedEven : EvenStyle
            { existing with source := source, fetchedAt := now } :=
          existingEven
        exact even.install renewedEven generation definition false task
      · cases stepped
        exact even.update rfl rfl (by simp)
    · cases stepped
      exact even.update rfl rfl (by simp)
  · next source generation definition current content validator task free =>
    obtain ⟨generationEven, currentEven⟩ := even.tasks id _ task
    split at stepped
    · split at stepped
      · cases stepped
        exact even.update rfl rfl (by simp)
      · cases stepped
        refine even.install ?_ generation definition current.isNone task
        cases current with
        | none => exact generationEven
        | some existing => exact currentEven existing rfl
    · cases stepped
      exact even.update rfl rfl (by simp)
  · contradiction

theorem EvenNamespaces.step (even : EvenNamespaces state)
    (refuses : RefusesOdd env) (stepped : step env state label = some next) :
    EvenNamespaces next := by
  cases label with
  | boot deferred =>
      cases stepped
      exact ⟨by simp [AppState.booted, KeyedTable.empty],
        fun id task running => by cases running⟩
  | scrollTtl ttl =>
      cases stepped
      simp only [setScrollTtl]
      split
      · exact ⟨even.entries, even.tasks⟩
      · exact even
  | cacheCall op =>
      cases stepped
      exact ⟨even.entries, even.tasks⟩
  | runJob id outcome =>
      simp only [Config.step, runJob] at stepped
      split at stepped
      · cases stepped
        rw [perform_eq]
        exact ⟨even.entries, even.tasks⟩
      · contradiction
  | learnCommit id now => exact even.learnCommit stepped
  | configInstall id =>
      simp only [Config.step, configInstall] at stepped
      split at stepped
      · next body restored task =>
        have restoredEven := even.tasks id _ task
        cases stepped
        refine ⟨fun style member => ?_, fun other running found => ?_⟩
        · rcases KeyedTable.mem_of_mem_foldl_insertOrReplace member with
            old | restored
          · cases old
          · exact restoredEven style restored
        · by_cases same : other = id
          · subst same
            cases (Function.update_self _ _ _).symm.trans found
            trivial
          · exact even.tasks other running
              ((Function.update_of_ne same _ _).symm.trans found)
      · contradiction
  | learnRequest id source now =>
      simp only [Config.step, learnRequest] at stepped
      split at stepped
      · next fresh =>
        cases stepped
        exact even.update rfl rfl fun _ same => by
          cases same
          exact ⟨fresh.1, trivial⟩
      · contradiction
  | learnExisting id =>
      simp only [Config.step, learnExisting] at stepped
      split at stepped
      · next task =>
        have learn := even.tasks id _ task
        cases stepped
        exact even.update rfl rfl fun _ same => by
          cases same
          exact ⟨learn.1, fun style found => even.currentStyle found⟩
      · contradiction
  | learnAnswer id answer =>
      simp only [Config.step, learnAnswer] at stepped
      split at stepped
      · next task =>
        have learn := even.tasks id _ task
        repeat' split at stepped
        all_goals
          cases stepped
          refine even.update rfl rfl fun _ same => ?_
          cases same
        · exact ⟨learn.1, trivial⟩
        · exact learn
      · contradiction
  | configResume id =>
      simp only [Config.step, configResume] at stepped
      repeat' split at stepped
      all_goals first
        | contradiction
        | cases stepped
          refine even.update rfl rfl fun _ same => ?_
          cases same <;> first
            | trivial
            | exact evenStyle_restored refuses
            | exact fun _ member => absurd member List.not_mem_nil
            | next restored task _ =>
              have restoredEven := even.tasks id _ task
              exact restoredEven
  | _ =>
      simp only [Config.step, configRequest, configBegin, configSources,
        configReconcile, configPublish, learnResolve, learnPersist,
        learnFinish, lockHolder, unlockHolder, dropTask] at stepped
      repeat' split at stepped
      all_goals first
        | contradiction
        | cases stepped
          refine even.update rfl rfl fun _ same => ?_
          cases same <;> first
            | trivial
            | exact ⟨(even.learning (by assumption)).1, trivial⟩

theorem evenNamespaces_of_reachable (refuses : RefusesOdd env)
    (reached : (configMachine env).Reachable state) :
    EvenNamespaces state := by
  refine reached.invariant ?_ ?_
  · rintro first rfl
    exact ⟨by simp [firstBoot, AppState.booted, KeyedTable.empty],
      fun id task running => by cases running⟩
  · exact fun _ _ _ even stepped => even.step refuses stepped

end Even

/-! ## The push which takes the record back -/

section Install

variable {Document : Type} {env : Environment Document}
  {state next ready final : AppState Document} {wanted : String}
  {definition : ChartSource} {stored : Option (StoredLearnedStyle Document)}
  {style : StyleState Document} {learn push : Nat}
  {body : ConfigBody} {restored : List (StyleState Document)}

/-- What the map holds of the source once a push has replaced it. -/
theorem installed_lookup {signature : String}
    (locked : SavesLocked wanted ready)
    (stage : Stage env wanted definition stored signature style learn ready)
    (task : ready.tasks push = some (.config body (.installing restored)))
    (same : (catalogOf body.sources).lookup wanted = some definition)
    (stepped : step env ready (.configInstall push) = some final) :
    ∃ published, final.styleState.lookup wanted =
      rehydrated env wanted definition stored published := by
  have saves : ready.saves wanted push = true := by
    simp [AppState.saves, task, Task.saves]
  have lock := locked push saves
  have restoration : Restored env wanted definition stored body restored := by
    cases stage with
    | persisting generation running held =>
        obtain rfl : learn = push := Option.some.inj (held.symm.trans lock)
        cases running.symm.trans task
    | storing generation running held =>
        obtain rfl : learn = push := Option.some.inj (held.symm.trans lock)
        cases running.symm.trans task
    | kept idle => exact absurd (saves.symm.trans (idle push)) (by simp)
    | pushing holder body phase running held sources progress =>
        obtain rfl : holder = push := Option.some.inj (held.symm.trans lock)
        cases running.symm.trans task
        exact progress
  obtain ⟨published, entries⟩ := restoration same
  refine ⟨published, ?_⟩
  simp only [step, configInstall, task, Option.some.injEq] at stepped
  subst stepped
  cases outcome : rehydrated env wanted definition stored published with
  | none =>
      apply KeyedTable.lookup_eq_none.mpr
      intro entry member named
      rcases KeyedTable.mem_of_mem_foldl_insertOrReplace member with
        old | member
      · cases old
      · have found := (entries entry).mp ⟨member, named⟩
        rw [outcome] at found
        cases found
  | some entry =>
      obtain ⟨member, named⟩ := (entries entry).mpr outcome
      subst named
      refine KeyedTable.lookup_foldl_insertOrReplace _ ?_ (.inl member)
      intro other listed key
      have found := (entries other).mp ⟨listed, key⟩
      rw [outcome] at found
      exact Option.some.inj found.symm

theorem installStyle_task {id : Nat} (entry : StyleState Document)
    (generation : Nat) (source : ChartSource) (renewed : Bool) :
    (installStyle env state id entry generation source renewed).tasks id =
      some (.learn entry.source generation (.persisting entry)) :=
  Function.update_self _ _ _

/-- The first stage: a learn has just installed its entry. -/
theorem stage_of_commit (signature : String) {generation : Nat} {now : Int}
    {current : Option (StyleState Document)}
    {content : StyleContent Document} {validator : Option String}
    (found : state.sources.lookup wanted = some definition)
    (task : state.tasks learn = some (.learn wanted generation
      (.committing definition current content validator)))
    (stepped : step env state (.learnCommit learn now) = some next)
    (installed : next.tasks learn =
      some (.learn wanted generation (.persisting style))) :
    Stage env wanted definition
        (if env.encodedLength (.fromLive style) ≤ maxPersistedStyleBytes then
          some (recordOf wanted signature style)
        else
          state.learnedStyles.lookup wanted)
        signature style learn next ∧
      style = { source := wanted
                content := content
                configGeneration := generation
                generation := current.elim generation StyleState.generation
                fetchedAt := now
                upstreamValidator := validator } := by
  have finished : (state.finish learn).tasks learn ≠
      some (.learn wanted generation (.persisting style)) := by
    simp [AppState.finish, AppState.setTask]
  cases free : state.configUpdate with
  | some holder => simp [step, learnCommit, task, free] at stepped
  | none =>
      simp only [step, learnCommit, task, free] at stepped
      split at stepped
      · split at stepped
        · cases stepped
          exact absurd installed finished
        · cases stepped
          cases (installStyle_task _ _ _ _).symm.trans installed
          refine ⟨.persisting generation installed rfl found ?_, rfl⟩
          rfl
      · cases stepped
        exact absurd installed finished

end Install

end ChartLocker.Config

namespace ChartLocker.Style

open Library Catalog Config

/-- A deployment with the learner and the validator of this repository; the
lengths are those of `serde_json::to_vec`. -/
def learnerEnvironment (base : Environment Json)
    (documentLength : Json → Nat) : Environment Json :=
  { base with
    learnContent := fun hosts document tilejson =>
      learnStyle (fun url =>
        base.styleUrlAllowed url hosts base.allowPrivateEgress) document
        tilejson
    validPersisted :=
      validPersistedStyle documentLength base.styleUrlAllowed }

section Survival

variable {base : Environment Json} {documentLength : Json → Nat}

theorem validPersistedStyle_record
    {styleUrlAllowed : String → List String → Bool → Bool}
    {persisted : PersistedStyleState Json} {source : ChartSource}
    {allowHttp : Bool}
    (valid : validPersistedStyle documentLength styleUrlAllowed persisted
      source allowHttp = true) :
    persisted.version = persistedStyleVersion ∧
      persisted.generation % 2 = 0 := by
  unfold validPersistedStyle at valid
  split at valid
  · split at valid
    · simp only [validRecordSizes, Bool.and_eq_true,
        decide_eq_true_eq] at valid
      have sizes := valid.1.1.1.1.1
      exact ⟨sizes.1, sizes.2.1⟩
    · contradiction
  · contradiction

theorem refusesOdd_learnerEnvironment :
    RefusesOdd (learnerEnvironment base documentLength) :=
  fun _ _ _ valid => (validPersistedStyle_record valid).2

/-- Entries which differ in their catalog generation only. -/
def SameButGeneration (left right : StyleState Json) : Prop :=
  { left with configGeneration := right.configGeneration } = right

theorem sameButGeneration_intoLive {style : StyleState Json}
    {published : Nat} :
    SameButGeneration
      ((PersistedStyleState.fromLive style).intoLive style.source published)
      style :=
  rfl

/-- The record of an entry is what an equal entry would have been stored as. -/
theorem state_of_sameButGeneration {style : StyleState Json}
    {persisted : PersistedStyleState Json} {source : String}
    {published : Nat} (version : persisted.version = persistedStyleVersion)
    (same : SameButGeneration (persisted.intoLive source published) style) :
    persisted = .fromLive style := by
  rw [← same]
  cases persisted
  cases version
  rfl

/-- What the next push makes of the record of a learned style. -/
theorem rehydrated_iff {env : Environment Json}
    (learner : env = learnerEnvironment base documentLength)
    {definition : ChartSource} {styleUrl : String} {hosts : List String}
    (upstream : definition.upstream = .style styleUrl hosts)
    {signature : String}
    (signed : env.sourceSignature definition = some signature)
    {style : StyleState Json} {document : Json}
    {tilejson : String → Option Json}
    (learns : env.learnContent hosts document tilejson = some style.content)
    (even : style.generation % 2 = 0) (past : 0 ≤ style.fetchedAt)
    (older : Option (StoredLearnedStyle Json)) (published : Nat) :
    (∃ survived, rehydrated env style.source definition
        (if env.encodedLength (.fromLive style) ≤ maxPersistedStyleBytes then
          some (recordOf style.source signature style)
        else older) published = some survived ∧
        SameButGeneration survived style) ↔
      env.encodedLength (.fromLive style) ≤ maxPersistedStyleBytes ∧
        Durable documentLength document style.upstreamValidator := by
  subst learner
  by_cases fits : (learnerEnvironment base documentLength).encodedLength
    (.fromLive style) ≤ maxPersistedStyleBytes
  · have valid : validPersistedStyle documentLength base.styleUrlAllowed
        (.fromLive style) definition base.allowPrivateEgress = true ↔
        Durable documentLength document style.upstreamValidator :=
      validPersistedStyle_iff upstream learns rfl even past
    rw [if_pos fits]
    constructor
    · rintro ⟨survived, found, _⟩
      obtain ⟨row, kept, rfl⟩ := Option.map_eq_some_iff.mp found
      obtain ⟨stored, checks⟩ := Option.filter_eq_some_iff.mp kept
      cases stored
      rw [Bool.and_eq_true] at checks
      exact ⟨fits, valid.mp checks.2⟩
    · rintro ⟨_, durable⟩
      refine ⟨_, Option.map_eq_some_iff.mpr ⟨_,
        Option.filter_eq_some_iff.mpr ⟨rfl, ?_⟩, rfl⟩,
        sameButGeneration_intoLive⟩
      rw [Bool.and_eq_true, decide_eq_true_eq]
      exact ⟨⟨signed.symm, fits⟩, valid.mpr durable⟩
  · -- An older record of the source is too short to be the one of the style.
    rw [if_neg fits]
    refine iff_of_false ?_ fun conditions => fits conditions.1
    rintro ⟨survived, found, same⟩
    obtain ⟨row, kept, rfl⟩ := Option.map_eq_some_iff.mp found
    have checks := (Option.filter_eq_some_iff.mp kept).2
    rw [Bool.and_eq_true, decide_eq_true_eq] at checks
    have version := (validPersistedStyle_record checks.2).1
    have equal := state_of_sameButGeneration version same
    exact fits (equal ▸ checks.1.2)

/-- A style which a learn installs survives the next push which carries the
same definition, in this process or in a later one, exactly if its record is
short enough to be stored and passes the checks which only the record has to
pass. -/
theorem style_survives_iff {env : Environment Json}
    (learner : env = learnerEnvironment base documentLength)
    {state next ready final : AppState Json} {labels : List (Label Json)}
    {learn push generation : Nat} {now : Int} {wanted styleUrl : String}
    {hosts : List String} {definition : ChartSource} {signature : String}
    {document : Json} {tilejson : String → Option Json}
    {current : Option (StyleState Json)} {content : StyleContent Json}
    {validator : Option String} {style : StyleState Json} {body : ConfigBody}
    {restored : List (StyleState Json)}
    (reached : (configMachine env).Reachable state)
    (found : state.sources.lookup wanted = some definition)
    (upstream : definition.upstream = .style styleUrl hosts)
    (signed : env.sourceSignature definition = some signature)
    (learns : env.learnContent hosts document tilejson = some content)
    (task : state.tasks learn = some (.learn wanted generation
      (.committing definition current content validator)))
    (past : 0 ≤ now)
    (committed : (configMachine env).step state (.learnCommit learn now) =
      some next)
    (installed : next.tasks learn =
      some (.learn wanted generation (.persisting style)))
    (run : (configMachine env).exec next labels = some ready)
    (undisturbed : (configMachine env).AllSteps (Undisturbed env wanted) next
      labels)
    (pushing : ready.tasks push = some (.config body (.installing restored)))
    (same : (catalogOf body.sources).lookup wanted = some definition)
    (pushed : (configMachine env).step ready (.configInstall push) =
      some final) :
    (∃ survived, final.styleState.lookup wanted = some survived ∧
        SameButGeneration survived style) ↔
      env.encodedLength (.fromLive style) ≤ maxPersistedStyleBytes ∧
        Durable documentLength document validator := by
  obtain ⟨stage, rfl⟩ := stage_of_commit signature found task committed
    installed
  have isStyle : definition.isStyle = true := by
    simp [ChartSource.isStyle, upstream]
  have arrived : (configMachine env).Reachable next := reached.step committed
  have staged := stage_exec isStyle signed (owned_of_reachable arrived)
    (savesLocked_of_reachable arrived wanted) stage run undisturbed
  obtain ⟨published, outcome⟩ := installed_lookup
    (savesLocked_of_reachable (arrived.exec run) wanted) staged pushing same
    pushed
  have even := (evenNamespaces_of_reachable
    (learner ▸ refusesOdd_learnerEnvironment) arrived).learning installed
  rw [outcome]
  exact rehydrated_iff learner upstream signed learns even.2 past _ published

/-- A deployment which allows the hosts of its sources. -/
def sampleBase : Environment Json where
  allowPrivateEgress := false
  freshSecs := 86400
  capBytes := 1000
  scrollTtlSecs := 0
  geocodingEnabled := true
  sourceValid := fun _ _ => true
  sourceSignature := fun source => some source.title
  styleUrlAllowed := fun url hosts _ =>
    hosts.any fun host => Cache.startsWith url s!"https://{host}/"
  learnContent := fun _ _ _ => none
  encodedLength := fun _ => 1000
  validPersisted := fun _ _ _ => false

def sampleLearner : Environment Json :=
  learnerEnvironment sampleBase fun _ => 300

def labelLayer : Json :=
  .object [("layout", .object [("text-font", .array [.string "Noto"])])]

/-- A style with a font stack, vector tiles and a raster source of relief
shading. -/
def reliefStyle (relief : Json) : Json :=
  .object [("layers", .array [labelLayer]),
    ("sources", .object
      [("osm", .object [("type", .string "vector"),
        ("tiles", .array [.string "https://tiles.org/{z}/{x}/{y}"])]),
      ("relief", relief)])]

def reliefChart : ChartSource where
  id := "chart"
  title := "Chart"
  upstream := .style "https://tiles.org/style.json" ["tiles.org"]
  tileSize := 512
  minzoom := 0
  maxzoom := 14
  vectorMaxzoom := none
  bounds := none
  coverage := none
  maxAgeSeconds := none
  attribution := ""

def reliefPush : ConfigBody :=
  { sampleBody with sources := [reliefChart] }

/-- A push, and a learn up to its commit. -/
def learning (document : Json) : List (Label Json) :=
  acceptedPush 1 reliefPush ++
    [.learnRequest 2 "chart" 50, .learnResolve 2, .learnExisting 2,
      .learnAnswer 2 (.document document (fun _ => none) none)]

/-- The learn stores its record, the process starts again, and the catalog is
pushed up to the replacement of the styles. -/
def repushing (jobs : List (Label Json)) : List (Label Json) :=
  [.learnPersist 2, .runJob 2 .ok, .learnFinish 2, .boot false,
    .configRequest 3 reliefPush, .configBegin 3, .runJob 3 .ok,
    .configResume 3, .configSources 3, .configReconcile 3, .runJob 3 .ok,
    .configResume 3] ++ jobs

/-- A raster source without tiles, which the learner accepts. -/
def bareRelief : Json :=
  .object [("type", .string "raster")]

/-- A raster source with tiles. -/
def tiledRelief : Json :=
  .object [("type", .string "raster"),
    ("tiles", .array [.string "https://tiles.org/relief/{z}/{x}/{y}"])]

theorem bareRelief_style_lost :
    ∃ state next ready final style,
      (configMachine sampleLearner).exec (firstBoot sampleLearner)
        (learning (reliefStyle bareRelief)) = some state ∧
      (configMachine sampleLearner).step state (.learnCommit 2 60) =
        some next ∧
      next.styleState.lookup "chart" = some style ∧
      (configMachine sampleLearner).exec next
        (repushing [.runJob 3 .ok, .configResume 3]) = some ready ∧
      ready.tasks 3 = some (.config reliefPush (.installing [])) ∧
      (configMachine sampleLearner).step ready (.configInstall 3) =
        some final ∧
      final.styleState.lookup "chart" = none := by
  refine ⟨_, _, _, _, _, rfl, rfl, rfl, rfl, rfl, rfl, ?_⟩
  rfl

theorem tiledRelief_undisturbed :
    ∃ state next ready final style restored content,
      (configMachine sampleLearner).exec (firstBoot sampleLearner)
        (learning (reliefStyle tiledRelief)) = some state ∧
      state.sources.lookup "chart" = some reliefChart ∧
      sampleLearner.learnContent ["tiles.org"] (reliefStyle tiledRelief)
        (fun _ => none) = some content ∧
      state.tasks 2 = some (.learn "chart" 2
        (.committing reliefChart none content none)) ∧
      (configMachine sampleLearner).step state (.learnCommit 2 60) =
        some next ∧
      next.tasks 2 = some (.learn "chart" 2 (.persisting style)) ∧
      (configMachine sampleLearner).exec next (repushing []) = some ready ∧
      (configMachine sampleLearner).AllSteps
        (Undisturbed sampleLearner "chart") next (repushing []) ∧
      ready.tasks 3 = some (.config reliefPush (.installing restored)) ∧
      (configMachine sampleLearner).step ready (.configInstall 3) =
        some final := by
  refine ⟨_, _, _, _, _, _, _, rfl, rfl, rfl, rfl, rfl, rfl, rfl, ?_, rfl,
    rfl⟩
  apply Machine.allSteps_cons_of_step rfl trivial
  apply Machine.allSteps_cons_of_step rfl fun _ _ _ => ⟨rfl, rfl, rfl⟩
  apply Machine.allSteps_cons_of_step rfl trivial
  apply Machine.allSteps_cons_of_step rfl
  · rintro (_ | _ | _ | id) <;> rfl
  apply Machine.allSteps_cons_of_step rfl trivial
  apply Machine.allSteps_cons_of_step rfl trivial
  apply Machine.allSteps_cons_of_step rfl
  · rintro _ ⟨⟩ writes
    exact writes.elim
  apply Machine.allSteps_cons_of_step rfl trivial
  apply Machine.allSteps_cons_of_step rfl trivial
  apply Machine.allSteps_cons_of_step rfl trivial
  apply Machine.allSteps_cons_of_step rfl fun _ _ _ => ⟨rfl, rfl, rfl⟩
  apply Machine.allSteps_cons_of_step rfl trivial
  trivial

theorem durable_tiledRelief :
    Durable (fun _ => 300) (reliefStyle tiledRelief) none where
  fontstacks := by
    intro layers read fontstack kept
    cases read
    obtain ⟨_, _, layer, member, font⟩ := kept
    obtain rfl := List.mem_singleton.mp member
    cases font
    decide
  rasters := by
    intro members read entry member raster
    cases read
    rcases member with _ | ⟨_, _ | ⟨_, ⟨⟩⟩⟩ <;> rfl
  validator := by
    intro text given
    cases given
  length := by decide

theorem style_survives_iff_tiledRelief :
    ∃ final style survived,
      (∃ state next ready,
        (configMachine sampleLearner).exec (firstBoot sampleLearner)
          (learning (reliefStyle tiledRelief)) = some state ∧
        (configMachine sampleLearner).step state (.learnCommit 2 60) =
          some next ∧
        next.tasks 2 = some (.learn "chart" 2 (.persisting style)) ∧
        (configMachine sampleLearner).exec next (repushing []) = some ready ∧
        (configMachine sampleLearner).step ready (.configInstall 3) =
          some final) ∧
      final.styleState.lookup "chart" = some survived ∧
      SameButGeneration survived style := by
  obtain ⟨state, next, ready, final, style, restored, content, learned, found,
    learns, task, committed, installed, run, undisturbed, pushing,
    pushed⟩ := tiledRelief_undisturbed
  have fits : sampleBase.encodedLength (.fromLive style) ≤
      maxPersistedStyleBytes := Nat.le_of_ble_eq_true rfl
  obtain ⟨survived, kept, same⟩ := (style_survives_iff rfl
    ⟨_, _, rfl, learned⟩ found rfl rfl learns task (by decide) committed
    installed run undisturbed pushing rfl pushed).mpr
      ⟨fits, durable_tiledRelief⟩
  exact ⟨final, style, survived,
    ⟨state, next, ready, learned, committed, installed, run, pushed⟩, kept,
    same⟩

end Survival

end ChartLocker.Style
