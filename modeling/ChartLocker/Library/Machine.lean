import Mathlib.Data.List.Basic
import Mathlib.Data.List.Induction

/-!
# Executable labelled machines

A machine is a partial step function: a label which a state does not enable
has no successor.  Nondeterminism (the schedule, the answers of the outside
world, the clock) is carried by the labels, so that a concrete run can be
evaluated while a theorem quantifies over every list of labels.

The rules below are the induction principles used by safety arguments: an
invariant of one step is an invariant of a run, possibly under a condition
which every step of the run meets, and a run which leaves a set of states has
a first step which leaves it.
-/

namespace Library

universe u v

/-- A machine with a set of initial states and a partial step function. -/
structure Machine (State : Type u) (Label : Type v) where
  initial : State → Prop
  step : State → Label → Option State

namespace Machine

variable {State : Type u} {Label : Type v} (machine : Machine State Label)

/-- Perform the labels from left to right. -/
def exec : State → List Label → Option State
  | state, [] => some state
  | state, label :: rest =>
      (machine.step state label).bind fun next => exec next rest

/-- Every step performed along the labels meets a condition on the state
before it and on its label. -/
def AllSteps (meets : State → Label → Prop) : State → List Label → Prop
  | _, [] => True
  | state, label :: rest =>
      meets state label ∧
        ∀ next, machine.step state label = some next →
          AllSteps meets next rest

/-- A state at the end of some run from an initial state. -/
def Reachable (state : State) : Prop :=
  ∃ start labels, machine.initial start ∧
    machine.exec start labels = some state

variable {machine}

@[simp] theorem exec_nil (state : State) :
    machine.exec state [] = some state :=
  rfl

theorem exec_cons_eq_some {start finish : State} {label : Label}
    {rest : List Label} :
    machine.exec start (label :: rest) = some finish ↔
      ∃ next, machine.step start label = some next ∧
        machine.exec next rest = some finish := by
  simp [exec, Option.bind_eq_some_iff]

theorem exec_append_eq_some {start finish : State}
    {first second : List Label} :
    machine.exec start (first ++ second) = some finish ↔
      ∃ middle, machine.exec start first = some middle ∧
        machine.exec middle second = some finish := by
  induction first generalizing start with
  | nil => simp
  | cons label rest induction =>
      simp only [List.cons_append, exec_cons_eq_some, induction]
      constructor
      · rintro ⟨next, stepped, middle, left, right⟩
        exact ⟨middle, ⟨next, stepped, left⟩, right⟩
      · rintro ⟨middle, ⟨next, stepped, left⟩, right⟩
        exact ⟨next, stepped, middle, left, right⟩

theorem allSteps_cons_of_step {meets : State → Label → Prop}
    {start next : State} {label : Label} {rest : List Label}
    (stepped : machine.step start label = some next)
    (met : meets start label) (later : machine.AllSteps meets next rest) :
    machine.AllSteps meets start (label :: rest) := by
  refine ⟨met, fun other same => ?_⟩
  obtain rfl : next = other := Option.some.inj (stepped.symm.trans same)
  exact later

theorem allSteps_cons_iff {meets : State → Label → Prop} {start : State}
    {label : Label} {rest : List Label} :
    machine.AllSteps meets start (label :: rest) ↔
      meets start label ∧ ((machine.step start label).elim True
        fun next => machine.AllSteps meets next rest) := by
  cases stepped : machine.step start label <;> simp [AllSteps, stepped]

/-- A condition which can be computed can be checked along a run. -/
instance decidableAllSteps (meets : State → Label → Prop)
    [∀ state label, Decidable (meets state label)] :
    ∀ start labels, Decidable (machine.AllSteps meets start labels)
  | _, [] => isTrue trivial
  | start, label :: rest =>
      have : Decidable ((machine.step start label).elim True
          fun next => machine.AllSteps meets next rest) :=
        match machine.step start label with
        | some next => decidableAllSteps meets next rest
        | none => isTrue trivial
      decidable_of_iff _ allSteps_cons_iff.symm

theorem allSteps_append {meets : State → Label → Prop} {start : State}
    {first second : List Label} :
    machine.AllSteps meets start (first ++ second) ↔
      machine.AllSteps meets start first ∧
        ∀ middle, machine.exec start first = some middle →
          machine.AllSteps meets middle second := by
  induction first generalizing start with
  | nil => simp [AllSteps]
  | cons label rest induction =>
      simp only [List.cons_append, AllSteps, induction]
      constructor
      · rintro ⟨head, tail⟩
        refine ⟨⟨head, fun next stepped => (tail next stepped).1⟩, ?_⟩
        intro middle run
        obtain ⟨next, stepped, rest⟩ := exec_cons_eq_some.mp run
        exact (tail next stepped).2 middle rest
      · rintro ⟨⟨head, tail⟩, later⟩
        refine ⟨head, fun next stepped => ⟨tail next stepped, ?_⟩⟩
        intro middle run
        exact later middle (exec_cons_eq_some.mpr ⟨next, stepped, run⟩)

/-- The invariant rule under a condition which every step of the run meets. -/
theorem exec_preserves_of_allSteps {meets : State → Label → Prop}
    {motive : State → Prop}
    (preserved : ∀ state label next, motive state → meets state label →
      machine.step state label = some next → motive next)
    {start finish : State} {labels : List Label}
    (run : machine.exec start labels = some finish)
    (conditions : machine.AllSteps meets start labels)
    (holds : motive start) : motive finish := by
  induction labels generalizing start with
  | nil =>
      have same : start = finish := by simpa using run
      exact same ▸ holds
  | cons label rest induction =>
      obtain ⟨next, stepped, later⟩ := exec_cons_eq_some.mp run
      exact induction later (conditions.2 next stepped)
        (preserved start label next holds conditions.1 stepped)

/-- The invariant holds at every step of such a run. -/
theorem allSteps_invariant {meets : State → Label → Prop}
    {motive : State → Prop}
    (preserved : ∀ state label next, motive state → meets state label →
      machine.step state label = some next → motive next)
    {start : State} {labels : List Label}
    (conditions : machine.AllSteps meets start labels)
    (holds : motive start) :
    machine.AllSteps (fun state label => motive state ∧ meets state label)
      start labels := by
  induction labels generalizing start with
  | nil => trivial
  | cons label rest induction =>
      refine ⟨⟨holds, conditions.1⟩, fun next stepped => ?_⟩
      exact induction (conditions.2 next stepped)
        (preserved start label next holds conditions.1 stepped)

/-- Along steps of which something is given, a property which a step keeps
exactly if it meets a condition holds at the end of a run exactly if it holds
at the start and every step meets the condition. -/
theorem exec_iff_allSteps {given meets : State → Label → Prop}
    {motive : State → Prop}
    (exact : ∀ state label next, given state label →
      machine.step state label = some next →
        (motive next ↔ motive state ∧ meets state label))
    {start finish : State} {labels : List Label}
    (run : machine.exec start labels = some finish)
    (conditions : machine.AllSteps given start labels) :
    motive finish ↔ motive start ∧ machine.AllSteps meets start labels := by
  induction labels generalizing start with
  | nil =>
      obtain rfl : start = finish := by simpa using run
      simp [AllSteps]
  | cons label rest induction =>
      obtain ⟨next, stepped, later⟩ := exec_cons_eq_some.mp run
      rw [induction later (conditions.2 next stepped),
        exact start label next conditions.1 stepped, allSteps_cons_iff,
        stepped, Option.elim_some, and_assoc]

/-- Along a run from a state with a property, every state has it exactly if
every step meets the condition on which a step keeps it. -/
theorem always_iff_allSteps {meets : State → Label → Prop}
    {invariant motive : State → Prop}
    (preserved : ∀ state label next, invariant state →
      machine.step state label = some next → invariant next)
    (exact : ∀ state label next, invariant state → motive state →
      machine.step state label = some next →
        (motive next ↔ meets state label))
    {start finish : State} {labels : List Label}
    (run : machine.exec start labels = some finish)
    (initially : invariant start) (holds : motive start) :
    (∀ earlier later state, labels = earlier ++ later →
      machine.exec start earlier = some state → motive state) ↔
        machine.AllSteps meets start labels := by
  induction labels generalizing start with
  | nil =>
      refine ⟨fun _ => trivial, fun _ earlier later state same reached => ?_⟩
      obtain ⟨rfl, rfl⟩ := List.append_eq_nil_iff.mp same.symm
      obtain rfl : start = state := by simpa using reached
      exact holds
  | cons label rest induction =>
      obtain ⟨next, stepped, later⟩ := exec_cons_eq_some.mp run
      have kept := preserved start label next initially stepped
      constructor
      · intro always
        have nextHolds : motive next := by
          apply always [label] rest next rfl
          exact exec_cons_eq_some.mpr ⟨next, stepped, rfl⟩
        apply allSteps_cons_of_step stepped
          ((exact start label next initially holds stepped).mp nextHolds)
        apply (induction later kept nextHolds).mp
        intro earlier after state same reached
        apply always (label :: earlier) after state
        · rw [same, List.cons_append]
        · exact exec_cons_eq_some.mpr ⟨next, stepped, reached⟩
      · intro conditions earlier after state same reached
        cases earlier with
        | nil =>
            obtain rfl : start = state := by simpa using reached
            exact holds
        | cons first others =>
            obtain ⟨rfl, rfl⟩ := List.cons.inj same
            obtain ⟨middle, began, continued⟩ := exec_cons_eq_some.mp reached
            obtain rfl : next = middle :=
              Option.some.inj (stepped.symm.trans began)
            have nextHolds := (exact start label next initially holds
              stepped).mpr conditions.1
            exact (induction later kept nextHolds).mpr
              (conditions.2 next stepped) others after state rfl continued

theorem allSteps_and {first second : State → Label → Prop} {start : State}
    {labels : List Label} (left : machine.AllSteps first start labels)
    (right : machine.AllSteps second start labels) :
    machine.AllSteps (fun state label => first state label ∧
      second state label) start labels := by
  induction labels generalizing start with
  | nil => trivial
  | cons label rest induction =>
      exact ⟨⟨left.1, right.1⟩, fun next stepped =>
        induction (left.2 next stepped) (right.2 next stepped)⟩

/-- A condition on the labels alone. -/
theorem allSteps_of_labels {meets : State → Label → Prop} {start : State}
    {labels : List Label}
    (all : ∀ label ∈ labels, ∀ state, meets state label) :
    machine.AllSteps meets start labels := by
  induction labels generalizing start with
  | nil => trivial
  | cons label rest induction =>
      exact ⟨all label List.mem_cons_self start, fun _ _ => induction
        fun other member => all other (List.mem_cons_of_mem _ member)⟩

theorem allSteps_trivial (start : State) (labels : List Label) :
    machine.AllSteps (fun _ _ => True) start labels :=
  allSteps_of_labels fun _ _ _ => trivial

/-- Every step of a run starts where the labels before it have led. -/
theorem allSteps_reached {start middle : State} {first labels : List Label}
    (reached : machine.exec start first = some middle) :
    machine.AllSteps (fun state label => ∃ done rest,
      first ++ labels = done ++ label :: rest ∧
        machine.exec start done = some state) middle labels := by
  induction labels generalizing first middle with
  | nil => trivial
  | cons label rest induction =>
      refine ⟨⟨first, rest, rfl, reached⟩, fun next stepped => ?_⟩
      have later : machine.exec start (first ++ [label]) = some next :=
        exec_append_eq_some.mpr ⟨middle, reached,
          exec_cons_eq_some.mpr ⟨next, stepped, rfl⟩⟩
      simpa using induction later

theorem AllSteps.mono {first second : State → Label → Prop} {start : State}
    {labels : List Label} (conditions : machine.AllSteps first start labels)
    (weaker : ∀ state label, first state label → second state label) :
    machine.AllSteps second start labels := by
  induction labels generalizing start with
  | nil => trivial
  | cons label rest induction =>
      exact ⟨weaker _ _ conditions.1, fun next stepped =>
        induction (conditions.2 next stepped)⟩

/-- The invariant rule. -/
theorem exec_preserves {motive : State → Prop}
    (preserved : ∀ state label next, motive state →
      machine.step state label = some next → motive next)
    {start finish : State} {labels : List Label}
    (run : machine.exec start labels = some finish)
    (holds : motive start) : motive finish :=
  exec_preserves_of_allSteps
    (fun state label next before _ stepped =>
      preserved state label next before stepped)
    run (allSteps_trivial start labels) holds

theorem Reachable.invariant {motive : State → Prop}
    (start : ∀ state, machine.initial state → motive state)
    (preserved : ∀ state label next, motive state →
      machine.step state label = some next → motive next)
    {state : State} (reached : machine.Reachable state) :
    motive state := by
  obtain ⟨first, labels, initial, run⟩ := reached
  exact exec_preserves preserved run (start first initial)

theorem Reachable.exec {start finish : State} {labels : List Label}
    (reached : machine.Reachable start)
    (run : machine.exec start labels = some finish) :
    machine.Reachable finish := by
  obtain ⟨first, earlier, initial, before⟩ := reached
  exact ⟨first, earlier ++ labels, initial,
    exec_append_eq_some.mpr ⟨start, before, run⟩⟩

theorem Reachable.step {start finish : State} {label : Label}
    (reached : machine.Reachable start)
    (stepped : machine.step start label = some finish) :
    machine.Reachable finish :=
  reached.exec (exec_cons_eq_some.mpr ⟨finish, stepped, exec_nil finish⟩)

/-- Induction on a run from its start, with the labels performed so far. -/
theorem exec_history {motive : List Label → State → Prop}
    {start finish : State} {labels : List Label}
    (run : machine.exec start labels = some finish)
    (starts : motive [] start)
    (goes : ∀ before label state next,
      machine.exec start before = some state → motive before state →
      machine.step state label = some next →
      motive (before ++ [label]) next) : motive labels finish := by
  induction labels using List.reverseRecOn generalizing finish with
  | nil =>
      have same : start = finish := by simpa using run
      exact same ▸ starts
  | append_singleton before label induction =>
      obtain ⟨state, reached, last⟩ := exec_append_eq_some.mp run
      obtain ⟨next, stepped, ended⟩ := exec_cons_eq_some.mp last
      obtain rfl : next = finish := by simpa using ended
      exact goes before label state next reached (induction reached) stepped

/-- A run which starts inside a set of states and ends outside it has a step
which leaves the set. -/
theorem exec_leaves (inside : State → Prop) {start finish : State}
    {labels : List Label} (run : machine.exec start labels = some finish)
    (starts : inside start) (ends : ¬ inside finish) :
    ∃ before label after state next,
      labels = before ++ label :: after ∧
        machine.exec start before = some state ∧
        machine.step state label = some next ∧
        machine.exec next after = some finish ∧
        inside state ∧ ¬ inside next := by
  induction labels generalizing start with
  | nil =>
      have same : start = finish := by simpa using run
      exact absurd (same ▸ starts) ends
  | cons label rest induction =>
      obtain ⟨next, stepped, later⟩ := exec_cons_eq_some.mp run
      by_cases stays : inside next
      · obtain ⟨before, leaving, after, state, outside, rfl, reach, leave,
          remainder, member, departed⟩ := induction later stays
        exact ⟨label :: before, leaving, after, state, outside, rfl,
          exec_cons_eq_some.mpr ⟨next, stepped, reach⟩, leave, remainder,
          member, departed⟩
      · exact ⟨[], label, rest, start, next, rfl, rfl, stepped, later,
          starts, stays⟩

/-- Either every step of a run meets a condition, or the run has a first step
which does not. -/
theorem allSteps_or_first (meets : State → Label → Prop)
    {start finish : State} {labels : List Label}
    (run : machine.exec start labels = some finish) :
    machine.AllSteps meets start labels ∨
      ∃ before label after state next,
        labels = before ++ label :: after ∧
          machine.exec start before = some state ∧
          machine.step state label = some next ∧
          machine.AllSteps meets start before ∧ ¬ meets state label := by
  induction labels generalizing start with
  | nil => exact .inl trivial
  | cons label rest induction =>
      obtain ⟨next, stepped, later⟩ := exec_cons_eq_some.mp run
      by_cases met : meets start label
      · rcases induction later with all | ⟨before, failing, after, state,
          successor, rfl, reach, leave, earlier, fails⟩
        · refine .inl ⟨met, fun other same => ?_⟩
          have equality : next = other :=
            Option.some.inj (stepped.symm.trans same)
          exact equality ▸ all
        · refine .inr ⟨label :: before, failing, after, state, successor,
            rfl, exec_cons_eq_some.mpr ⟨next, stepped, reach⟩, leave,
            ⟨met, fun other same => ?_⟩, fails⟩
          have equality : next = other :=
            Option.some.inj (stepped.symm.trans same)
          exact equality ▸ earlier
      · exact .inr ⟨[], label, rest, start, next, rfl, rfl, stepped,
          trivial, met⟩

end Machine

end Library
