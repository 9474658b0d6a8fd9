import Mathlib.Tactic.Basic

/-!
# Scripts of database statements

A script executes statements on a database and keeps some values in memory.
A plan says which of the executed statements fail; a failed statement has no
effect, and an open transaction is rolled back.  The rules below say of which
scripts a failure leaves nothing behind.
-/

namespace Library

variable {Failure Data Memory α β : Type}

/-- The database, the memory, and the number of statements executed. -/
structure Session (Data Memory : Type) where
  data : Data
  memory : Memory
  executed : Nat

/-- The failures of the statements, by the number of statements before. -/
abbrev FaultPlan (Failure : Type) : Type := Nat → Option Failure

def FaultPlan.none : FaultPlan Failure := fun _ => Option.none

/-- One statement fails. -/
def FaultPlan.single (position : Nat) (failure : Failure) :
    FaultPlan Failure :=
  fun executed => if executed = position then some failure else Option.none

def Script (Failure Data Memory α : Type) : Type :=
  FaultPlan Failure → Session Data Memory →
    Except Failure α × Session Data Memory

namespace Script

def bind (first : Script Failure Data Memory α)
    (next : α → Script Failure Data Memory β) :
    Script Failure Data Memory β := fun faults session =>
  match first faults session with
  | (.ok value, after) => next value faults after
  | (.error failure, after) => (.error failure, after)

instance : Monad (Script Failure Data Memory) where
  pure value := fun _ session => (.ok value, session)
  bind := bind

/-- Return a failure which no statement reported. -/
def fail (failure : Failure) : Script Failure Data Memory α :=
  fun _ session => (.error failure, session)

def statement (run : Data → α × Data) : Script Failure Data Memory α :=
  fun faults session =>
    let after := { session with executed := session.executed + 1 }
    match faults session.executed with
    | some failure => (.error failure, after)
    | none =>
        let done := run session.data
        (.ok done.1, { after with data := done.2 })

def query (read : Data → α) : Script Failure Data Memory α :=
  statement fun data => (read data, data)

def execute (write : Data → Data) : Script Failure Data Memory Unit :=
  statement fun data => ((), write data)

def consult (read : Memory → α) : Script Failure Data Memory α :=
  fun _ session => (.ok (read session.memory), session)

def remember (update : Memory → Memory) : Script Failure Data Memory Unit :=
  fun _ session =>
    (.ok (), { session with memory := update session.memory })

/-- Run a script and look at its failure. -/
def attempt (body : Script Failure Data Memory α) :
    Script Failure Data Memory (Except Failure α) := fun faults session =>
  let done := body faults session
  (.ok done.1, done.2)

/-- The body between `BEGIN` and `COMMIT`.  The transaction is dropped, and
so rolled back, when a statement fails or when its result is not kept. -/
def transaction (keep : α → Bool) (body : Script Failure Data Memory α) :
    Script Failure Data Memory α := fun faults session =>
  let rollback := fun after : Session Data Memory =>
    { after with data := session.data }
  match execute id faults session with
  | (.error failure, begun) => (.error failure, begun)
  | (.ok _, begun) =>
    match body faults begun with
    | (.error failure, after) => (.error failure, rollback after)
    | (.ok value, after) =>
      if keep value then
        match execute id faults after with
        | (.error failure, ended) => (.error failure, rollback ended)
        | (.ok _, ended) => (.ok value, ended)
      else
        (.ok value, rollback after)

theorem bind_apply (first : Script Failure Data Memory α)
    (next : α → Script Failure Data Memory β) (faults : FaultPlan Failure)
    (session : Session Data Memory) :
    (first >>= next) faults session =
      match first faults session with
      | (.ok value, after) => next value faults after
      | (.error failure, after) => (.error failure, after) :=
  rfl

/-! ## Scripts which change nothing -/

/-- The database and the memory are as before. -/
structure Unchanged (before after : Session Data Memory) : Prop where
  data : after.data = before.data
  memory : after.memory = before.memory

theorem Unchanged.refl (session : Session Data Memory) :
    Unchanged session session :=
  ⟨rfl, rfl⟩

theorem Unchanged.trans {first second third : Session Data Memory}
    (left : Unchanged first second) (right : Unchanged second third) :
    Unchanged first third :=
  ⟨right.data.trans left.data, right.memory.trans left.memory⟩

/-- The script changes nothing, whatever fails. -/
def Steady (script : Script Failure Data Memory α) : Prop :=
  ∀ faults session, Unchanged session (script faults session).2

/-- The script leaves the memory as it is. -/
def KeepsMemory (script : Script Failure Data Memory α) : Prop :=
  ∀ faults session, (script faults session).2.memory = session.memory

/-- The script does not fail. -/
def Certain (script : Script Failure Data Memory α) : Prop :=
  ∀ faults session failure, (script faults session).1 ≠ .error failure

/-- A failure of the script leaves nothing behind. -/
def Atomic (script : Script Failure Data Memory α) : Prop :=
  ∀ faults session failure, (script faults session).1 = .error failure →
    Unchanged session (script faults session).2

section Rules

variable {script first : Script Failure Data Memory α}
  {next : α → Script Failure Data Memory β}

theorem steady_pure (value : α) :
    Steady (pure value : Script Failure Data Memory α) :=
  fun _ session => Unchanged.refl session

theorem steady_consult (read : Memory → α) :
    Steady (consult read : Script Failure Data Memory α) :=
  fun _ session => Unchanged.refl session

theorem steady_fail (failure : Failure) :
    Steady (fail failure : Script Failure Data Memory α) :=
  fun _ session => Unchanged.refl session

theorem steady_query (read : Data → α) :
    Steady (query read : Script Failure Data Memory α) := by
  intro faults session
  unfold query statement
  cases faults session.executed <;> exact ⟨rfl, rfl⟩

theorem Steady.bind (reads : Steady first)
    (rest : ∀ value, Steady (next value)) : Steady (first >>= next) := by
  intro faults session
  have before := reads faults session
  rw [bind_apply]
  split
  · next value after ran =>
    rw [ran] at before
    exact before.trans (rest value faults after)
  · next failure after ran =>
    rw [ran] at before
    exact before

theorem Steady.attempt (reads : Steady script) : Steady (attempt script) :=
  reads

theorem Steady.keepsMemory (reads : Steady script) : KeepsMemory script :=
  fun faults session => (reads faults session).memory

theorem keepsMemory_statement (run : Data → α × Data) :
    KeepsMemory (statement run : Script Failure Data Memory α) := by
  intro faults session
  unfold statement
  cases faults session.executed <;> rfl

theorem KeepsMemory.bind (keeps : KeepsMemory first)
    (rest : ∀ value, KeepsMemory (next value)) :
    KeepsMemory (first >>= next) := by
  intro faults session
  have before := keeps faults session
  rw [bind_apply]
  split
  · next value after ran =>
    rw [ran] at before
    exact (rest value faults after).trans before
  · next failure after ran =>
    rw [ran] at before
    exact before

theorem KeepsMemory.ite {condition : Prop} [Decidable condition]
    {second : Script Failure Data Memory α} (yes : KeepsMemory first)
    (no : KeepsMemory second) :
    KeepsMemory (if condition then first else second) := by
  split
  · exact yes
  · exact no

theorem certain_pure (value : α) :
    Certain (pure value : Script Failure Data Memory α) := by
  intro faults session failure failed
  cases failed

theorem certain_remember (update : Memory → Memory) :
    Certain (remember update : Script Failure Data Memory Unit) := by
  intro faults session failure failed
  cases failed

theorem Certain.bind (certain : Certain first)
    (rest : ∀ value, Certain (next value)) : Certain (first >>= next) := by
  intro faults session failure
  have before := certain faults session
  rw [bind_apply]
  split
  · next value after ran => exact rest value faults after failure
  · next other after ran =>
    rw [ran] at before
    exact absurd rfl (before other)

/-! ## Failures which leave nothing behind -/

theorem Steady.atomic (reads : Steady script) : Atomic script :=
  fun faults session _ _ => reads faults session

theorem Certain.atomic (certain : Certain script) : Atomic script :=
  fun faults session failure failed =>
    absurd failed (certain faults session failure)

theorem atomic_statement (run : Data → α × Data) :
    Atomic (statement run : Script Failure Data Memory α) := by
  intro faults session failure
  unfold statement
  cases faults session.executed with
  | none =>
      intro failed
      cases failed
  | some reported => exact fun _ => ⟨rfl, rfl⟩

/-- First look, then act. -/
theorem Atomic.of_steady (reads : Steady first)
    (rest : ∀ value, Atomic (next value)) : Atomic (first >>= next) := by
  intro faults session failure
  have before := reads faults session
  rw [bind_apply]
  split
  · next value after ran =>
    rw [ran] at before
    exact fun failed => before.trans (rest value faults after failure failed)
  · next reported after ran =>
    rw [ran] at before
    exact fun _ => before

/-- First act, then do what does not fail. -/
theorem Atomic.bind_certain (acts : Atomic first)
    (rest : ∀ value, Certain (next value)) : Atomic (first >>= next) := by
  intro faults session failure
  have before := acts faults session
  rw [bind_apply]
  split
  · next value after ran =>
    exact fun failed => absurd failed (rest value faults after failure)
  · next reported after ran =>
    rw [ran] at before
    exact fun _ => before reported rfl

/-- The failure of an attempt is handled over what was there before. -/
theorem Atomic.attempt (acts : Atomic first)
    {next : Except Failure α → Script Failure Data Memory β}
    (done : ∀ value, Certain (next (.ok value)))
    (failed : ∀ failure, Atomic (next (.error failure))) :
    Atomic (attempt first >>= next) := by
  intro faults session failure ended
  have before := acts faults session
  rw [bind_apply] at ended ⊢
  dsimp only [Script.attempt] at ended ⊢
  cases ran : first faults session with
  | mk result after =>
      rw [ran] at before ended
      cases result with
      | ok value => exact absurd ended (done value faults after failure)
      | error reported =>
          exact (before reported rfl).trans
            (failed reported faults after failure ended)

/-- The session after `BEGIN` or `COMMIT`. -/
def Session.counted (session : Session Data Memory) : Session Data Memory :=
  { session with executed := session.executed + 1 }

theorem execute_id (faults : FaultPlan Failure)
    (session : Session Data Memory) :
    (execute id : Script Failure Data Memory Unit) faults session =
      (match faults session.executed with
        | some failure => .error failure
        | none => .ok (), Session.counted session) := by
  unfold execute statement Session.counted
  cases faults session.executed <;> rfl

/-- What a transaction returns: the failure of `BEGIN`, of its body or of
`COMMIT`, its result without its effect, or its result. -/
theorem transaction_cases (keep : α → Bool)
    (body : Script Failure Data Memory α) (faults : FaultPlan Failure)
    (session : Session Data Memory) :
    let after := (body faults (Session.counted session)).2
    let done := transaction keep body faults session
    (∃ failure, done = (.error failure, Session.counted session)) ∨
    (∃ failure executed, done = (.error failure,
      ⟨session.data, after.memory, executed⟩)) ∨
    (∃ value, (body faults (Session.counted session)).1 = .ok value ∧
      keep value = false ∧
      done = (.ok value, { after with data := session.data })) ∨
    (∃ value, (body faults (Session.counted session)).1 = .ok value ∧
      keep value = true ∧ done = (.ok value, Session.counted after)) := by
  simp only [transaction, execute_id]
  cases faults session.executed with
  | some failure => exact .inl ⟨failure, rfl⟩
  | none =>
      right
      dsimp only
      cases ran : body faults (Session.counted session) with
      | mk result after =>
          cases result with
          | error failure => exact .inl ⟨failure, after.executed, rfl⟩
          | ok value =>
              dsimp only
              cases kept : keep value with
              | false => exact .inr (.inl ⟨value, rfl, kept, rfl⟩)
              | true =>
                  cases faults after.executed with
                  | some failure => exact .inl ⟨failure, _, rfl⟩
                  | none => exact .inr (.inr ⟨value, rfl, kept, rfl⟩)

/-- A transaction is rolled back by every failure. -/
theorem atomic_transaction {keep : α → Bool} (keeps : KeepsMemory script) :
    Atomic (transaction keep script) := by
  intro faults session failure failed
  have memory : (script faults (Session.counted session)).2.memory =
      session.memory := keeps faults (Session.counted session)
  rcases transaction_cases keep script faults session with
    ⟨_, done⟩ | ⟨_, _, done⟩ | ⟨value, _, _, done⟩ | ⟨value, _, _, done⟩
  · rw [done]
    exact ⟨rfl, rfl⟩
  · rw [done]
    exact ⟨rfl, memory⟩
  · rw [done] at failed
    cases failed
  · rw [done] at failed
    cases failed

/-! ## Counting statements -/

/-- The number of statements which a script executes unless one fails. -/
def Counts (count : Nat) (script : Script Failure Data Memory α) : Prop :=
  ∀ faults session value, (script faults session).1 = .ok value →
    (script faults session).2.executed = session.executed + count

theorem counts_statement (run : Data → α × Data) :
    Counts 1 (statement run : Script Failure Data Memory α) := by
  intro faults session value returned
  unfold statement at *
  cases faults session.executed <;> rfl

theorem counts_pure (value : α) :
    Counts 0 (pure value : Script Failure Data Memory α) :=
  fun _ _ _ _ => rfl

theorem Counts.bind {before after : Nat} (counted : Counts before first)
    (rest : ∀ value, Counts after (next value)) :
    Counts (before + after) (first >>= next) := by
  intro faults session result returned
  have start := counted faults session
  rw [bind_apply] at returned ⊢
  split at returned
  · next value middle ran =>
    rw [ran] at start
    have ends := rest value faults middle result returned
    have begins := start value rfl
    dsimp only at begins ends ⊢
    omega
  · cases returned

/-- A transaction which keeps its result has executed two statements more
than its body. -/
theorem Counts.kept {count : Nat} {keep : α → Bool}
    (counted : Counts count script) {faults : FaultPlan Failure}
    {session after : Session Data Memory} {value : α}
    (ran : transaction keep script faults session = (.ok value, after))
    (kept : keep value = true) :
    after.executed = session.executed + (count + 2) := by
  rcases transaction_cases keep script faults session with ⟨_, done⟩ |
    ⟨_, _, done⟩ | ⟨other, _, dropped, done⟩ | ⟨other, inner, _, done⟩
  · rw [done] at ran
    cases ran
  · rw [done] at ran
    cases ran
  · rw [done] at ran
    cases ran
    rw [kept] at dropped
    contradiction
  · have inside := counted faults (Session.counted session) other inner
    rw [done] at ran
    cases ran
    unfold Session.counted at *
    dsimp only at *
    omega

/-- First act, then do what does not fail where the first script leaves the
count of statements. -/
theorem Atomic.bind_at (acts : Atomic first) {faults : FaultPlan Failure}
    {session : Session Data Memory}
    (rest : ∀ value after, first faults session = (.ok value, after) →
      ∀ failure, (next value faults after).1 ≠ .error failure)
    {failure : Failure}
    (failed : ((first >>= next) faults session).1 = .error failure) :
    Unchanged session ((first >>= next) faults session).2 := by
  have before := acts faults session
  rw [bind_apply] at failed ⊢
  cases ran : first faults session with
  | mk result after =>
      rw [ran] at before failed
      cases result with
      | ok value => exact absurd failed (rest value after ran failure)
      | error reported => exact before reported rfl

/-! ## Runs without a failure -/

/-- Without a failure the script returns a value and leaves a database and a
memory. -/
def Returns (script : Script Failure Data Memory α) (data : Data)
    (memory : Memory) (value : α) (dataAfter : Data)
    (memoryAfter : Memory) : Prop :=
  ∀ executed, ∃ executedAfter,
    script FaultPlan.none ⟨data, memory, executed⟩ =
      (.ok value, ⟨dataAfter, memoryAfter, executedAfter⟩)

variable {data middle final : Data} {memory between last : Memory}
  {value : α} {result : β}

theorem returns_pure (value : α) (data : Data) (memory : Memory) :
    Returns (pure value : Script Failure Data Memory α) data memory value data
      memory :=
  fun executed => ⟨executed, rfl⟩

theorem returns_statement (run : Data → α × Data) (data : Data)
    (memory : Memory) :
    Returns (statement run : Script Failure Data Memory α) data memory
      (run data).1 (run data).2 memory :=
  fun executed => ⟨executed + 1, rfl⟩

theorem returns_query (read : Data → α) (data : Data) (memory : Memory) :
    Returns (query read : Script Failure Data Memory α) data memory
      (read data) data memory :=
  fun executed => ⟨executed + 1, rfl⟩

theorem returns_execute (write : Data → Data) (data : Data)
    (memory : Memory) :
    Returns (execute write : Script Failure Data Memory Unit) data memory ()
      (write data) memory :=
  fun executed => ⟨executed + 1, rfl⟩

theorem returns_consult (read : Memory → α) (data : Data) (memory : Memory) :
    Returns (consult read : Script Failure Data Memory α) data memory
      (read memory) data memory :=
  fun executed => ⟨executed, rfl⟩

theorem returns_remember (update : Memory → Memory) (data : Data)
    (memory : Memory) :
    Returns (remember update : Script Failure Data Memory Unit) data memory ()
      data (update memory) :=
  fun executed => ⟨executed, rfl⟩

theorem Returns.bind (returns : Returns first data memory value middle between)
    (rest : Returns (next value) middle between result final last) :
    Returns (first >>= next) data memory result final last := by
  intro executed
  obtain ⟨count, ran⟩ := returns executed
  obtain ⟨total, ended⟩ := rest count
  refine ⟨total, ?_⟩
  rw [bind_apply, ran]
  exact ended

theorem Returns.attempt
    (returns : Returns script data memory value middle between) :
    Returns (attempt script) data memory (.ok value) middle between := by
  intro executed
  obtain ⟨count, ran⟩ := returns executed
  refine ⟨count, ?_⟩
  unfold Script.attempt
  rw [ran]

theorem Returns.transaction {keep : α → Bool}
    (returns : Returns script data memory value middle between) :
    Returns (transaction keep script) data memory value
      (if keep value then middle else data) between := by
  intro executed
  obtain ⟨count, ran⟩ := returns (executed + 1)
  unfold Script.transaction
  simp only [execute_id, Session.counted, FaultPlan.none] at ran ⊢
  rw [ran]
  cases kept : keep value with
  | false => exact ⟨count, by simp [kept]⟩
  | true => exact ⟨count + 1, by simp [kept]⟩

end Rules

end Script

end Library
