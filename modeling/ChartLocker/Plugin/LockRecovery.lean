import ChartLocker.Plugin.TokenAgreement

/-!
# When a recovery removes no lock of a live process

A lease is judged abandoned from its process id, or, as long as it is empty,
from its age.  The age says nothing about a process which is slow to read the
clock; so a run is undisturbed if the writing of an id and the reading of the
clock together take less than `LOCK_STALE_MS`.  Then only leases of dead
processes are reaped, the fixed link keeps its owner elected alone, and the
one which is elected removes the lock that it has looked at.

What the operations do not guard are the removals by path: another recovery
may be elected between the look at the fixed link of a dead one and its
removal, and an inode may be used again while a process remembers it.  An
undisturbed run has neither.
-/

namespace ChartLocker.Plugin

open Library

variable {Token : Type}

/-! ## Undisturbed runs -/

/-- Every live process has written its id into each of its lease files, or has
created the file less than `writeMs` ago. -/
def TokenDirectory.Prompt (state : TokenDirectory Token) (writeMs : Nat) :
    Prop :=
  ∀ lease ∈ state.files, state.alive lease.owner = true →
    lease.written = true ∨ state.now < lease.modified + writeMs

/-- An empty lease of a live process was read at most `readMs` ago. -/
def Probe.Timely (state : TokenDirectory Token) (readMs : Nat) :
    Probe → Prop
  | .judging file _ none read =>
      ∀ lease ∈ state.files[file]?, state.alive lease.owner = true →
        state.now ≤ read + readMs
  | _ => True

/-- What happens to a process between two of its operations leaves it right
about what it has looked at. -/
def TokenPhase.Undisturbed (state : TokenDirectory Token) (readMs : Nat) :
    TokenPhase Token → Prop
  | .scanning _ (.probing _ probe _) | .scanning _ (.probingFixed probe)
  | .inspecting _ probe => probe.Timely state readMs
  -- No recovery has been elected since the look at the fixed link.
  | .scanning _ (.reapingFixed _ file .unlinking _)
  | .scanning _ (.reapingOrphan file .unlinking) =>
      ∀ named ∈ state.recovery, named = file
  -- The inode of the lease has not been used again.
  | .removing _ file .checking =>
      ∀ named ∈ state.lock, state.sameIdentity file named = true →
        named = file
  | _ => True

def TokenDirectory.Undisturbed (state : TokenDirectory Token)
    (readMs : Nat) : TokenLabel Token → Prop
  | .advance pid _ => (state.processes pid).phase.Undisturbed state readMs
  | _ => True

section Decidable

variable (state : TokenDirectory Token) (writeMs readMs : Nat)

instance : Decidable (state.Prompt writeMs) :=
  inferInstanceAs (Decidable (∀ lease ∈ state.files,
    state.alive lease.owner = true →
      lease.written = true ∨ state.now < lease.modified + writeMs))

instance (probe : Probe) : Decidable (probe.Timely state readMs) := by
  unfold Probe.Timely
  split <;> infer_instance

instance (phase : TokenPhase Token) :
    Decidable (phase.Undisturbed state readMs) := by
  unfold TokenPhase.Undisturbed
  split <;> infer_instance

instance (label : TokenLabel Token) :
    Decidable (state.Undisturbed readMs label) := by
  unfold TokenDirectory.Undisturbed
  split <;> infer_instance

end Decidable

/-! ## The invariant -/

namespace TokenDirectory

/-- The file was created by a process which is dead. -/
def Orphaned (state : TokenDirectory Token) (file : Nat) : Prop :=
  ∃ lease, state.files[file]? = some lease ∧ state.alive lease.owner = false

/-- The fixed link is the one of the process. -/
def Elected (state : TokenDirectory Token) (pid owner : Nat) : Prop :=
  state.recovery = some owner ∧ state.Created owner pid

end TokenDirectory

/-- What is known of a lease which is being looked at. -/
def Probe.Informed (state : TokenDirectory Token) (writeMs : Nat) :
    Probe → Prop
  | .opening => True
  | .stating file => file < state.files.length
  | .reading file modified =>
      ∃ lease, state.files[file]? = some lease ∧
        (lease.written = false → modified = lease.modified)
  | .judging file modified pid read =>
      ∃ lease, state.files[file]? = some lease ∧
        (∀ owner ∈ pid, owner = lease.owner) ∧
        (pid = none → state.alive lease.owner = true →
          read < modified + writeMs)

/-- What a process has found out, or has brought about. -/
def TokenPhase.Founded (state : TokenDirectory Token) (writeMs pid : Nat) :
    TokenPhase Token → Prop
  | .scanning _ (.probing _ probe _) | .scanning _ (.probingFixed probe) =>
      probe.Informed state writeMs
  | .scanning _ (.reapingFixed _ file _ _)
  | .scanning _ (.reapingOrphan file _) => state.Orphaned file
  | .writingOwner owner | .electing owner => state.Created owner pid
  | .inspecting owner probe =>
      state.Elected pid owner ∧ probe.Informed state writeMs
  | .removing owner file stage =>
      state.Elected pid owner ∧ state.Orphaned file ∧
        (stage = .unlinking → state.lock = some file)
  | .unelecting owner _ => state.Elected pid owner
  | _ => True

namespace TokenDirectory

/-- Every live process is right, and the paths name files. -/
structure Recovering (writeMs : Nat) (state : TokenDirectory Token) :
    Prop where
  founded : ∀ pid, state.alive pid = true →
    (state.processes pid).phase.Founded state writeMs pid
  linked : ∀ file ∈ state.linked, file < state.files.length

/-! ## What an operation leaves as it is -/

/-- Files are created and written, and processes die. -/
structure Later (state next : TokenDirectory Token) : Prop where
  files : ∀ (file : Nat) (lease : LeaseFile),
    state.files[file]? = some lease →
      ∃ later, next.files[file]? = some later ∧
        later.owner = lease.owner ∧ (later.written = false → later = lease)
  alive : ∀ pid, next.alive pid = true → state.alive pid = true

namespace Later

variable {state next : TokenDirectory Token}

theorem refl (state : TokenDirectory Token) : state.Later state :=
  ⟨fun _ lease stored => ⟨lease, stored, rfl, fun _ => rfl⟩, fun _ => id⟩

theorem length (later : state.Later next) {file : Nat}
    (inside : file < state.files.length) : file < next.files.length := by
  obtain ⟨_, stored, _⟩ :=
    later.files file _ (List.getElem?_eq_getElem inside)
  exact (List.getElem?_eq_some_iff.mp stored).1

theorem created (later : state.Later next) {file pid : Nat}
    (created : state.Created file pid) : next.Created file pid := by
  obtain ⟨lease, stored, owner⟩ := created
  obtain ⟨after, found, same, _⟩ := later.files file lease stored
  exact ⟨after, found, same.trans owner⟩

theorem orphaned (later : state.Later next) {file : Nat}
    (orphaned : state.Orphaned file) : next.Orphaned file := by
  obtain ⟨lease, stored, dead⟩ := orphaned
  obtain ⟨after, found, same, _⟩ := later.files file lease stored
  refine ⟨after, found, ?_⟩
  rw [same]
  cases lives : next.alive lease.owner with
  | false => rfl
  | true => cases dead.symm.trans (later.alive _ lives)

theorem informed (later : state.Later next) {writeMs : Nat} {probe : Probe}
    (informed : probe.Informed state writeMs) :
    probe.Informed next writeMs := by
  cases probe with
  | opening => trivial
  | stating file => exact later.length informed
  | reading file modified =>
      obtain ⟨lease, stored, age⟩ := informed
      obtain ⟨after, found, _, still⟩ := later.files file lease stored
      refine ⟨after, found, fun empty => ?_⟩
      have same := still empty
      subst same
      exact age empty
  | judging file modified pid read =>
      obtain ⟨lease, stored, own, young⟩ := informed
      obtain ⟨after, found, same, _⟩ := later.files file lease stored
      refine ⟨after, found, ?_, ?_⟩ <;> rw [same]
      · exact own
      · exact fun empty lives => young empty (later.alive _ lives)

end Later

/-- What the operation of a process leaves to the others. -/
structure Leaves (pid : Nat) (state mid : TokenDirectory Token) :
    Prop where
  later : state.Later mid
  processes : mid.processes = state.processes
  linked : ∀ file ∈ mid.linked, file < mid.files.length
  recovery : ∀ other owner, other ≠ pid → state.Elected other owner →
    state.alive other = true → mid.recovery = some owner
  lock : ∀ other owner file, other ≠ pid → state.Elected other owner →
    state.alive other = true → state.Orphaned file →
      state.lock = some file → mid.lock = some file

section Operations

variable {writeMs : Nat} {state mid next : TokenDirectory Token} {pid : Nat}

theorem Elected.later {owner : Nat} (elected : state.Elected pid owner)
    (later : state.Later mid) (same : mid.recovery = some owner) :
    mid.Elected pid owner :=
  ⟨same, later.created elected.2⟩

/-- Two elected processes are one. -/
theorem Elected.unique {other first second : Nat}
    (elected : state.Elected pid first)
    (also : state.Elected other second) : pid = other := by
  obtain ⟨named, lease, stored, rfl⟩ := elected
  obtain ⟨again, second, found, rfl⟩ := also
  obtain rfl := Option.some.inj (named.symm.trans again)
  obtain rfl := Option.some.inj (stored.symm.trans found)
  rfl

/-- What a process knows stays right under the operation of another. -/
theorem Leaves.founded (leaves : state.Leaves pid mid) {other : Nat}
    (apart : other ≠ pid) (lives : state.alive other = true)
    {phase : TokenPhase Token} (founded : phase.Founded state writeMs other) :
    phase.Founded mid writeMs other := by
  have still : ∀ {owner : Nat}, state.Elected other owner →
      mid.Elected other owner := fun elected =>
    elected.later leaves.later (leaves.recovery _ _ apart elected lives)
  cases phase with
  | scanning purpose scan =>
      cases scan with
      | probing | probingFixed => exact leaves.later.informed founded
      | reapingFixed | reapingOrphan => exact leaves.later.orphaned founded
      | _ => trivial
  | writingOwner owner | electing owner =>
      exact leaves.later.created founded
  | inspecting owner probe =>
      exact ⟨still founded.1, leaves.later.informed founded.2⟩
  | removing owner file stage =>
      obtain ⟨elected, orphaned, named⟩ := founded
      exact ⟨still elected, leaves.later.orphaned orphaned, fun unlinks =>
        leaves.lock _ _ _ apart elected lives orphaned (named unlinks)⟩
  | unelecting owner stage => exact still founded
  | _ => trivial

/-- What is known does not depend on how far the processes are. -/
theorem founded_setProcess (state : TokenDirectory Token) (other : Nat)
    (process : TokenProcess Token) (phase : TokenPhase Token) :
    phase.Founded (state.setProcess other process) writeMs pid =
      phase.Founded state writeMs pid := by
  cases phase with
  | scanning purpose scan => cases scan <;> rfl
  | _ => rfl

namespace Recovering

/-- The process which has moved is right again. -/
theorem setProcess (recovering : state.Recovering writeMs)
    (leaves : state.Leaves pid mid) {process : TokenProcess Token}
    (founded : process.phase.Founded mid writeMs pid) :
    (mid.setProcess pid process).Recovering writeMs where
  founded other lives := by
    rw [founded_setProcess]
    by_cases own : other = pid
    · subst own
      rw [setProcess_self]
      exact founded
    · rw [setProcess_other _ own, leaves.processes]
      have before := leaves.later.alive other lives
      exact leaves.founded own before (recovering.founded other before)
  linked := leaves.linked

theorem toPhase (recovering : state.Recovering writeMs)
    (leaves : state.Leaves pid mid) {phase : TokenPhase Token}
    (founded : phase.Founded mid writeMs pid) :
    (mid.toPhase pid phase).Recovering writeMs :=
  recovering.setProcess leaves founded

end Recovering

namespace Leaves

theorem refl (recovering : state.Recovering writeMs) :
    state.Leaves pid state where
  later := .refl state
  processes := rfl
  linked := recovering.linked
  recovery _ _ _ elected _ := elected.1
  lock _ _ _ _ _ _ _ named := named

/-- The paths of the lock and of the fixed link are as before. -/
theorem of_same (later : state.Later mid)
    (processes : mid.processes = state.processes)
    (linked : ∀ file ∈ mid.linked, file < mid.files.length)
    (lock : mid.lock = state.lock) (recovery : mid.recovery = state.recovery) :
    state.Leaves pid mid where
  later := later
  processes := processes
  linked := linked
  recovery _ _ _ elected _ := recovery.trans elected.1
  lock _ _ _ _ _ _ _ named := lock.trans named

/-- The token and the calls are no matter. -/
theorem congr {other : TokenDirectory Token} (leaves : state.Leaves pid mid)
    (files : other.files = mid.files) (alive : other.alive = mid.alive)
    (processes : other.processes = mid.processes)
    (lock : other.lock = mid.lock) (recovery : other.recovery = mid.recovery)
    (owners : other.owners = mid.owners) : state.Leaves pid other where
  later := ⟨files ▸ leaves.later.files, alive ▸ leaves.later.alive⟩
  processes := processes.trans leaves.processes
  linked := by
    unfold TokenDirectory.linked
    rw [lock, recovery, owners, files]
    exact leaves.linked
  recovery party owner apart elected lives :=
    recovery.trans (leaves.recovery party owner apart elected lives)
  lock party owner file apart elected lives orphaned named :=
    lock.trans (leaves.lock party owner file apart elected lives orphaned
      named)

end Leaves

namespace Recovering

theorem finish (recovering : state.Recovering writeMs)
    (leaves : state.Leaves pid mid) (result : Option Token) :
    (mid.finish pid result).Recovering writeMs := by
  unfold TokenDirectory.finish
  apply recovering.toPhase
  · exact leaves.congr rfl rfl rfl rfl rfl rfl
  · trivial

theorem retry (recovering : state.Recovering writeMs)
    (leaves : state.Leaves pid mid) : (mid.retry pid).Recovering writeMs := by
  unfold TokenDirectory.retry
  split
  · exact recovering.finish leaves none
  · exact recovering.toPhase leaves trivial

theorem scanned (recovering : state.Recovering writeMs)
    (leaves : state.Leaves pid mid) (busy : Bool) (purpose : ScanPurpose) :
    (mid.scanned pid busy purpose).Recovering writeMs := by
  cases purpose with
  | entering =>
      cases busy with
      | true => exact recovering.retry leaves
      | false => exact recovering.toPhase leaves trivial
  | confirming lock => cases busy <;> exact recovering.toPhase leaves trivial

end Recovering

/-! ## The file operations -/

theorem mem_linked {file : Nat} :
    file ∈ state.linked ↔ state.lock = some file ∨
      state.recovery = some file ∨ file ∈ state.owners := by
  simp [linked]

theorem linked_of_entry {path : LeasePath} {file : Nat}
    (named : state.entry path = some file) : file ∈ state.linked := by
  rw [mem_linked]
  cases path with
  | lock => exact .inl named
  | recovery => exact .inr (.inl named)
  | owner sidecar =>
      simp only [entry, Option.ite_none_right_eq_some,
        Option.some.injEq] at named
      exact .inr (.inr (named.2 ▸ named.1))

theorem linked_of_unlink (path : LeasePath) {file : Nat}
    (named : file ∈ (state.unlink path).linked) : file ∈ state.linked := by
  rw [mem_linked] at named ⊢
  cases path with
  | lock => exact named.imp_left nofun
  | recovery => exact named.imp_right fun rest => rest.imp_left nofun
  | owner sidecar =>
      exact named.imp_right fun rest => rest.imp_right List.mem_of_mem_erase

theorem eq_of_create {inode : Nat}
    (created : state.create pid inode = some mid) :
    mid = { state with
      files := state.files ++ [⟨pid, false, state.now, inode⟩] } := by
  unfold TokenDirectory.create at created
  split at created
  · contradiction
  · exact (Option.some.inj created).symm

/-- Files which have been there before are as they were. -/
theorem later_append (state : TokenDirectory Token)
    (files : List LeaseFile) (lock : Option Nat) (owners : List Nat) :
    state.Later { state with
      files := state.files ++ files, lock := lock, owners := owners } := by
  refine ⟨fun file lease stored => ⟨lease, ?_, rfl, fun _ => rfl⟩,
    fun _ => id⟩
  have inside := (List.getElem?_eq_some_iff.mp stored).1
  exact (List.getElem?_append_left inside).trans stored

theorem later_write (state : TokenDirectory Token) (file : Nat) :
    state.Later (state.write file) := by
  refine ⟨fun other lease stored => ?_, fun _ => id⟩
  by_cases same : file = other
  · subst same
    exact ⟨{ lease with written := true, modified := state.now },
      by simp [TokenDirectory.write, stored], rfl, nofun⟩
  · exact ⟨lease, by simp [TokenDirectory.write, same, stored], rfl,
      fun _ => rfl⟩

theorem Recovering.leaves_write (recovering : state.Recovering writeMs)
    (file : Nat) : state.Leaves pid (state.write file) := by
  refine .of_same (later_write state file) rfl ?_ rfl rfl
  intro other named
  exact (later_write state file).length (recovering.linked other named)

theorem later_unlink (state : TokenDirectory Token) (path : LeasePath) :
    state.Later (state.unlink path) := by
  cases path <;>
    exact ⟨fun _ lease stored => ⟨lease, stored, rfl, fun _ => rfl⟩,
      fun _ => id⟩

theorem Recovering.linked_unlink (recovering : state.Recovering writeMs)
    (path : LeasePath) :
    ∀ file ∈ (state.unlink path).linked,
      file < (state.unlink path).files.length := by
  intro file named
  exact (later_unlink state path).length
    (recovering.linked file (linked_of_unlink path named))

theorem Recovering.leaves_unlinkOwner (recovering : state.Recovering writeMs)
    (owner identity : Nat) (stage : Removal) :
    state.Leaves pid
      (state.unlinkOwnedPath (.owner owner) identity stage).1 := by
  cases stage with
  | checking => exact .refl recovering
  | unlinking =>
      exact .of_same (later_unlink state (.owner owner)) rfl
        (recovering.linked_unlink (.owner owner)) rfl rfl

/-- The fixed link is removed while nobody else is elected. -/
theorem Recovering.leaves_unlinkRecovery
    (recovering : state.Recovering writeMs) (identity : Nat)
    (stage : Removal)
    (alone : stage = .unlinking → ∀ other owner, other ≠ pid →
      state.alive other = true → ¬ state.Elected other owner) :
    state.Leaves pid
      (state.unlinkOwnedPath .recovery identity stage).1 := by
  cases stage with
  | checking => exact .refl recovering
  | unlinking =>
      refine ⟨later_unlink state .recovery, rfl,
        recovering.linked_unlink .recovery, ?_, ?_⟩
      · intro other owner apart elected lives
        exact absurd elected (alone rfl other owner apart lives)
      · exact fun _ _ _ _ _ _ _ named => named

/-- The lock is removed while nobody else is about to remove it. -/
theorem Recovering.leaves_unlinkLock (recovering : state.Recovering writeMs)
    (identity : Nat) (stage : Removal)
    (alone : stage = .unlinking → ∀ other owner file, other ≠ pid →
      state.alive other = true → state.Elected other owner →
        state.Orphaned file → state.lock ≠ some file) :
    state.Leaves pid (state.unlinkOwnedPath .lock identity stage).1 := by
  cases stage with
  | checking => exact .refl recovering
  | unlinking =>
      refine ⟨later_unlink state .lock, rfl,
        recovering.linked_unlink .lock, ?_, ?_⟩
      · exact fun _ _ _ elected _ => elected.1
      · intro other owner file apart elected lives orphaned named
        exact absurd named
          (alone rfl other owner file apart lives elected orphaned)

/-! ## Leases -/

/-- One more look at a lease. -/
theorem Recovering.informed (recovering : state.Recovering writeMs)
    (prompt : state.Prompt writeMs) {path : LeasePath} {probe later : Probe}
    (informed : probe.Informed state writeMs)
    (looks : state.inspectLease path probe = .inl later) :
    later.Informed state writeMs := by
  cases probe with
  | opening =>
      simp only [TokenDirectory.inspectLease] at looks
      split at looks
      · next file named =>
        cases looks
        exact recovering.linked file (linked_of_entry named)
      · contradiction
  | stating file =>
      cases looks
      have stored := List.getElem?_eq_getElem informed
      exact ⟨_, stored, fun _ => by rw [stored]; rfl⟩
  | reading file modified =>
      cases looks
      obtain ⟨lease, stored, age⟩ := informed
      refine ⟨lease, stored, ?_, fun empty lives => ?_⟩
      · rw [stored]
        cases written : lease.written <;> simp [written]
      · have unwritten : lease.written = false := by
          rw [stored] at empty
          cases written : lease.written <;> simp [written] at empty ⊢
        rw [age unwritten]
        rcases prompt lease (List.mem_of_getElem? stored) lives with
          written | young
        · cases unwritten.symm.trans written
        · exact young
  | judging file modified pid read => cases looks

/-- A lease which is judged abandoned is one of a dead process. -/
theorem orphaned_of_abandoned {readMs : Nat}
    (bounded : writeMs + readMs ≤ lockStaleMs) {path : LeasePath}
    {probe : Probe} (informed : probe.Informed state writeMs)
    (timely : probe.Timely state readMs) {file : Nat}
    (judged : state.inspectLease path probe = .inr (.abandoned file)) :
    state.Orphaned file := by
  cases probe with
  | opening =>
      simp only [TokenDirectory.inspectLease] at judged
      split at judged <;> cases judged
  | stating | reading => cases judged
  | judging found modified pid read =>
      obtain ⟨lease, stored, own, young⟩ := informed
      simp only [TokenDirectory.inspectLease, judge, Sum.inr.injEq] at judged
      cases pid with
      | some owner =>
          dsimp only at judged
          split at judged
          · cases judged
          · next dead =>
            cases judged
            refine ⟨lease, stored, ?_⟩
            rw [← own owner rfl]
            exact Bool.eq_false_iff.mpr dead
      | none =>
          dsimp only at judged
          split at judged
          · next stale =>
            cases judged
            refine ⟨lease, stored, Bool.eq_false_iff.mpr fun lives => ?_⟩
            -- The file was young when it was read, and the clock is prompt.
            have written := young rfl lives
            have clock := timely lease stored lives
            unfold lockStaleMs at bounded stale
            omega
          · cases judged

/-! ## The steps -/

/-- A process which holds a lock is alive, and its file is no orphan. -/
theorem Agreed.not_orphaned (agreed : state.Agreed fun _ => True)
    (living : state.alive pid = true) {lock : Nat}
    (holds : (state.processes pid).phase.holds = some lock) {file : Nat}
    (orphaned : state.Orphaned file) : state.lock ≠ some file := by
  intro named
  obtain ⟨own, lease, stored, rfl⟩ :=
    agreed.held pid trivial living lock holds
  obtain rfl := Option.some.inj (own.symm.trans named)
  obtain ⟨other, found, dead⟩ := orphaned
  obtain rfl := Option.some.inj (stored.symm.trans found)
  cases living.symm.trans dead

/-- What the fixed link names is no orphan while a live process is elected. -/
theorem Elected.not_orphaned {other owner file : Nat}
    (elected : state.Elected other owner)
    (lives : state.alive other = true) (orphaned : state.Orphaned file) :
    state.recovery ≠ some file := by
  intro named
  obtain ⟨own, lease, stored, rfl⟩ := elected
  obtain rfl := Option.some.inj (own.symm.trans named)
  obtain ⟨again, found, dead⟩ := orphaned
  obtain rfl := Option.some.inj (stored.symm.trans found)
  cases lives.symm.trans dead

/-- The fixed link of a dead process is reaped. -/
theorem Recovering.reaps (recovering : state.Recovering writeMs)
    {file : Nat} (orphaned : state.Orphaned file) {stage : Removal}
    (unreplaced : stage = .unlinking → ∀ named ∈ state.recovery,
      named = file) :
    state.Leaves pid (state.unlinkOwnedPath .recovery file stage).1 := by
  apply recovering.leaves_unlinkRecovery
  intro unlinks other owner _ lives elected
  have same := unreplaced unlinks owner elected.1
  exact elected.not_orphaned lives orphaned (same ▸ elected.1)

variable {readMs : Nat}

theorem Recovering.scan (recovering : state.Recovering writeMs)
    (bounded : writeMs + readMs ≤ lockStaleMs)
    (prompt : state.Prompt writeMs) {choice : Nat} {purpose : ScanPurpose}
    {scan : Scan}
    (founded : (TokenPhase.scanning purpose scan : TokenPhase Token).Founded
      state writeMs pid)
    (undisturbed : (TokenPhase.scanning purpose scan
      : TokenPhase Token).Undisturbed state readMs)
    (moved : state.scan pid choice purpose scan = some next) :
    next.Recovering writeMs := by
  have still : state.Leaves pid state := .refl recovering
  cases scan with
  | listing =>
      cases moved
      exact recovering.toPhase still trivial
  | choosing entries =>
      simp only [TokenDirectory.scan] at moved
      split at moved
      · split at moved
        · cases moved
          exact recovering.scanned still true purpose
        · cases moved
          exact recovering.toPhase still trivial
      · obtain ⟨owner, _, rfl⟩ := Option.map_eq_some_iff.mp moved
        exact recovering.toPhase still trivial
  | probing owner probe entries =>
      simp only [TokenDirectory.scan, Option.some.injEq] at moved
      subst moved
      split
      · next later looks =>
        exact recovering.toPhase still
          (recovering.informed prompt founded looks)
      · exact recovering.toPhase still trivial
      · exact recovering.toPhase still trivial
      · next file judged =>
        exact recovering.toPhase still
          (orphaned_of_abandoned bounded founded undisturbed judged)
  | reapingFixed owner file stage entries =>
      cases moved
      have leaves : state.Leaves pid
          (state.unlinkOwnedPath .recovery file stage).1 := by
        apply recovering.reaps founded
        rintro rfl
        exact undisturbed
      apply recovering.toPhase leaves
      split
      · exact leaves.later.orphaned founded
      · trivial
  | reapingOwner owner file stage entries =>
      cases moved
      apply recovering.toPhase (recovering.leaves_unlinkOwner owner file stage)
      split <;> trivial
  | probingFixed probe =>
      simp only [TokenDirectory.scan, Option.some.injEq] at moved
      subst moved
      split
      · next later looks =>
        exact recovering.toPhase still
          (recovering.informed prompt founded looks)
      · exact recovering.scanned still false purpose
      · exact recovering.scanned still true purpose
      · next file judged =>
        exact recovering.toPhase still
          (orphaned_of_abandoned bounded founded undisturbed judged)
  | reapingOrphan file stage =>
      have leaves : state.Leaves pid
          (state.unlinkOwnedPath .recovery file stage).1 := by
        apply recovering.reaps founded
        rintro rfl
        exact undisturbed
      simp only [TokenDirectory.scan, Option.some.injEq] at moved
      subst moved
      split
      · exact recovering.toPhase leaves (leaves.later.orphaned founded)
      · exact recovering.scanned leaves false purpose

theorem Recovering.criticalStep (recovering : state.Recovering writeMs)
    {lock : Nat} {step : CriticalStep Token}
    (moved : state.criticalStep pid lock step = some next) :
    next.Recovering writeMs := by
  have still : state.Leaves pid state := .refl recovering
  cases step with
  | reading =>
      cases moved
      apply recovering.toPhase still
      split <;> trivial
  | statting =>
      cases moved
      exact recovering.toPhase still trivial
  | settingAside =>
      cases moved
      apply recovering.toPhase
      · exact still.congr rfl rfl rfl rfl rfl rfl
      · trivial
  | creating => contradiction
  | linking token =>
      simp only [TokenDirectory.criticalStep] at moved
      split at moved <;> cases moved
      · apply recovering.toPhase
        · exact still.congr rfl rfl rfl rfl rfl rfl
        · trivial
      · exact recovering.toPhase still trivial

/-- A process gives up the lock which it holds. -/
theorem Recovering.ownRemoval (recovering : state.Recovering writeMs)
    (agreed : state.Agreed fun _ => True) (living : state.alive pid = true)
    {lock : Nat} (holds : (state.processes pid).phase.holds = some lock)
    (stage : Removal) :
    state.Leaves pid (state.unlinkOwnedPath .lock lock stage).1 := by
  apply recovering.leaves_unlinkLock
  intro _ other owner file _ _ _ orphaned
  exact agreed.not_orphaned living holds orphaned

/-- A process takes the free lock path. -/
theorem Recovering.createsLock (recovering : state.Recovering writeMs)
    (free : state.lock = none) {choice : Nat}
    (made : state.create pid choice = some next) :
    state.Leaves pid { next with lock := some state.files.length } := by
  obtain rfl := eq_of_create made
  refine ⟨later_append state _ _ _, rfl, ?_, ?_, ?_⟩
  · intro file named
    rcases mem_linked.mp named with locked | elsewhere
    · cases locked
      simp
    · have before := recovering.linked file
        (mem_linked.mpr (.inr elsewhere))
      simp only [List.length_append]
      omega
  · exact fun _ _ _ elected _ => elected.1
  · intro other owner file _ _ _ _ named
    cases free.symm.trans named

/-- A process creates its sidecar. -/
theorem Recovering.createsOwner (recovering : state.Recovering writeMs)
    {choice : Nat} (made : state.create pid choice = some next) :
    state.Leaves pid
      { next with owners := state.owners ++ [state.files.length] } := by
  obtain rfl := eq_of_create made
  apply Leaves.of_same (later_append state _ _ _) rfl ?_ rfl rfl
  intro file named
  simp only [List.length_append]
  have before : file ∈ state.linked ∨ file = state.files.length := by
    simp only [mem_linked, List.mem_append, List.mem_singleton] at named ⊢
    tauto
  rcases before with earlier | rfl
  · exact Nat.lt_succ_of_lt (recovering.linked file earlier)
  · exact Nat.lt_succ_self _

/-- A process links its sidecar to the free fixed path. -/
theorem Recovering.elects (recovering : state.Recovering writeMs)
    (free : state.recovery = none) {owner : Nat}
    (created : owner < state.files.length) :
    state.Leaves pid { state with recovery := some owner } := by
  refine ⟨⟨fun _ lease stored => ⟨lease, stored, rfl, fun _ => rfl⟩,
    fun _ => id⟩, rfl, ?_, ?_, ?_⟩
  · intro file named
    rcases mem_linked.mp named with locked | elected | sidecar
    · exact recovering.linked file (mem_linked.mpr (.inl locked))
    · cases elected
      exact created
    · exact recovering.linked file (mem_linked.mpr (.inr (.inr sidecar)))
  · intro other party _ elected
    cases free.symm.trans elected.1
  · exact fun _ _ _ _ _ _ _ named => named

/-- The elected process judges the lock. -/
theorem Recovering.inspects (recovering : state.Recovering writeMs)
    (bounded : writeMs + readMs ≤ lockStaleMs)
    (prompt : state.Prompt writeMs) {owner : Nat} {probe : Probe}
    (elected : state.Elected pid owner)
    (informed : probe.Informed state writeMs)
    (timely : probe.Timely state readMs) :
    (match state.inspectLease .lock probe with
      | .inl later => state.toPhase pid (.inspecting owner later)
      | .inr (.abandoned file) =>
          state.toPhase pid (.removing owner file .checking)
      | .inr _ => state.toPhase pid (.unelecting owner .checking)).Recovering
        writeMs := by
  have still : state.Leaves pid state := .refl recovering
  split
  · next later looks =>
    exact recovering.toPhase still
      ⟨elected, recovering.informed prompt informed looks⟩
  · next file judged =>
    have orphaned := orphaned_of_abandoned bounded informed timely judged
    exact recovering.toPhase still
      ⟨elected, orphaned, fun unlinking => by cases unlinking⟩
  · exact recovering.toPhase still elected

theorem Recovering.advance (recovering : state.Recovering writeMs)
    (agreed : state.Agreed fun _ => True) (living : state.alive pid = true)
    (bounded : writeMs + readMs ≤ lockStaleMs)
    (prompt : state.Prompt writeMs)
    (undisturbed : (state.processes pid).phase.Undisturbed state readMs)
    {choice : Nat} (moved : state.advance pid choice = some next) :
    next.Recovering writeMs := by
  have still : state.Leaves pid state := .refl recovering
  have founded := recovering.founded pid living
  unfold TokenDirectory.advance at moved
  split at moved
  · contradiction
  · split at moved
    · cases moved
      exact recovering.finish still _
    · cases moved
      exact recovering.setProcess still trivial
  · next purpose scan phase =>
    rw [phase] at founded undisturbed
    exact recovering.scan bounded prompt founded undisturbed moved
  · split at moved
    · cases moved
      exact recovering.toPhase still trivial
    · next free =>
      obtain ⟨created, made, rfl⟩ := Option.map_eq_some_iff.mp moved
      exact recovering.toPhase (recovering.createsLock free made) trivial
  · cases moved
    exact recovering.toPhase (recovering.leaves_write _) trivial
  · next lock stage throws phase =>
    have leaves := recovering.ownRemoval agreed living
      (show (state.processes pid).phase.holds = some lock by rw [phase]; rfl)
      stage
    simp only [Option.some.injEq] at moved
    subst moved
    split
    · exact recovering.toPhase leaves trivial
    · split
      · exact recovering.finish leaves none
      · exact recovering.retry leaves
  · obtain ⟨created, made, rfl⟩ := Option.map_eq_some_iff.mp moved
    apply recovering.toPhase (recovering.createsOwner made)
    obtain rfl := eq_of_create made
    exact ⟨_, List.getElem?_concat_length, rfl⟩
  · next owner phase =>
    cases moved
    rw [phase] at founded
    have leaves : state.Leaves pid (state.write owner) :=
      recovering.leaves_write owner
    exact recovering.toPhase leaves (leaves.later.created founded)
  · next owner phase =>
    rw [phase] at founded
    split at moved
    · next free =>
      cases moved
      have created : owner < state.files.length := by
        obtain ⟨lease, stored, _⟩ := founded
        exact (List.getElem?_eq_some_iff.mp stored).1
      exact recovering.toPhase (recovering.elects free created)
        ⟨⟨rfl, founded⟩, trivial⟩
    · cases moved
      exact recovering.toPhase still trivial
  · next owner probe phase =>
    rw [phase] at founded undisturbed
    cases moved
    exact recovering.inspects bounded prompt founded.1 founded.2 undisturbed
  · next owner file stage phase =>
    rw [phase] at founded undisturbed
    obtain ⟨elected, orphaned, _⟩ := founded
    cases moved
    have leaves : state.Leaves pid
        (state.unlinkOwnedPath .lock file stage).1 := by
      apply recovering.leaves_unlinkLock
      intro _ other party _ apart _ also
      exact absurd (also.unique elected) apart
    apply recovering.toPhase leaves
    cases stage with
    | checking =>
        split
        · next same =>
          refine ⟨elected, orphaned, fun _ => ?_⟩
          obtain ⟨named, found, identity⟩ := (Option.any_eq_true _ _).mp same
          rw [← undisturbed named found identity]
          exact found
        · exact elected
    | unlinking => exact elected
  · next owner stage phase =>
    rw [phase] at founded
    cases moved
    have leaves : state.Leaves pid
        (state.unlinkOwnedPath .recovery owner stage).1 := by
      apply recovering.leaves_unlinkRecovery
      intro _ other party apart _ also
      exact apart (also.unique founded)
    apply recovering.toPhase leaves
    cases stage with
    | checking =>
        split
        · exact founded
        · trivial
    | unlinking => trivial
  · next owner stage phase =>
    have leaves : state.Leaves pid
        (state.unlinkOwnedPath (.owner owner) owner stage).1 :=
      recovering.leaves_unlinkOwner owner owner stage
    simp only [Option.some.injEq] at moved
    subst moved
    split
    · exact recovering.toPhase leaves trivial
    · exact recovering.retry leaves
  · exact recovering.criticalStep moved
  · next lock result stage phase =>
    have leaves := recovering.ownRemoval agreed living
      (show (state.processes pid).phase.holds = some lock by rw [phase]; rfl)
      stage
    simp only [Option.some.injEq] at moved
    subst moved
    split
    · exact recovering.toPhase leaves trivial
    · exact recovering.finish leaves result

theorem Recovering.step (recovering : state.Recovering writeMs)
    (agreed : state.Agreed fun _ => True)
    (bounded : writeMs + readMs ≤ lockStaleMs)
    (prompt : state.Prompt writeMs) {label : TokenLabel Token}
    (undisturbed : state.Undisturbed readMs label)
    (stepped : state.step label = some next) : next.Recovering writeMs := by
  have still : ∀ pid, state.Leaves pid state := fun _ => .refl recovering
  cases label with
  | call pid =>
      obtain ⟨_, moved⟩ := living_eq_some.mp stepped
      unfold TokenDirectory.call at moved
      split at moved
      · cases moved
        exact recovering.toPhase (still pid) trivial
      · contradiction
  | advance pid choice =>
      obtain ⟨living, moved⟩ := living_eq_some.mp stepped
      exact recovering.advance agreed living bounded prompt undisturbed moved
  | generate pid token =>
      obtain ⟨_, moved⟩ := living_eq_some.mp stepped
      unfold TokenDirectory.generate at moved
      split at moved
      · cases moved
        exact recovering.toPhase (still pid) trivial
      · contradiction
  | fail pid =>
      obtain ⟨_, moved⟩ := living_eq_some.mp stepped
      unfold TokenDirectory.fail at moved
      split at moved
      · cases moved
        exact recovering.toPhase (still pid) trivial
      · cases moved
        exact recovering.toPhase (still pid) trivial
      · cases moved
        exact recovering.toPhase (still pid) trivial
      · contradiction
  | crash pid =>
      cases stepped
      have earlier : ∀ other,
          Function.update state.alive pid false other = true →
            other ≠ pid ∧ state.alive other = true := by
        intro other lives
        by_cases own : other = pid
        · subst own
          rw [Function.update_self] at lives
          cases lives
        · exact ⟨own, by rwa [Function.update_of_ne own] at lives⟩
      have leaves : state.Leaves pid
          { state with alive := Function.update state.alive pid false } :=
        .of_same ⟨fun _ lease stored => ⟨lease, stored, rfl, fun _ => rfl⟩,
          fun other lives => (earlier other lives).2⟩ rfl recovering.linked
          rfl rfl
      refine ⟨fun other lives => ?_, recovering.linked⟩
      obtain ⟨apart, before⟩ := earlier other lives
      exact leaves.founded apart before (recovering.founded other before)
  | pass ms =>
      cases stepped
      have leaves : ∀ pid, state.Leaves pid
          { state with now := state.now + ms } := fun pid =>
        (still pid).congr rfl rfl rfl rfl rfl rfl
      refine ⟨fun pid lives => ?_, recovering.linked⟩
      exact (leaves (pid + 1)).founded (Nat.succ_ne_self pid).symm lives
        (recovering.founded pid lives)

/-- The lock which a recovery removes is the one which it has judged. -/
theorem Recovering.spares (recovering : state.Recovering writeMs)
    {label : TokenLabel Token} (stepped : state.step label = some next) :
    state.takesLive label = false := by
  cases label with
  | advance pid choice =>
      obtain ⟨living, _⟩ := living_eq_some.mp stepped
      have founded := recovering.founded pid living
      dsimp only [takesLive]
      split
      · next owner file phase =>
        rw [phase] at founded
        obtain ⟨_, ⟨lease, stored, dead⟩, named⟩ := founded
        simp [named rfl, stored, dead]
      · rfl
  | _ => rfl

theorem Recovering.untouched (untouched : state.Untouched) :
    state.Recovering writeMs := by
  obtain ⟨idle, _, lock, recovery, owners, _, _⟩ := untouched
  constructor
  · intro pid _
    rw [idle pid]
    trivial
  · intro file named
    simp [TokenDirectory.linked, lock, recovery, owners] at named

end Operations

end TokenDirectory

/-- In an undisturbed run at most one process is in the section, no valid
token is renamed away and every call returns the same token. -/
theorem one_token_while_undisturbed
    {start final : TokenDirectory Token} {labels : List (TokenLabel Token)}
    {writeMs readMs : Nat} (bounded : writeMs + readMs ≤ lockStaleMs)
    (untouched : start.Untouched)
    (run : tokenMachine.exec start labels = some final)
    (undisturbed : tokenMachine.AllSteps
      (fun state label => state.Prompt writeMs ∧
        state.Undisturbed readMs label) start labels) :
    (∀ left right, final.alive left = true → final.alive right = true →
      (final.processes left).phase.inSection = true →
      (final.processes right).phase.inSection = true → left = right) ∧
    (∀ entry ∈ final.renamed, entry = .invalid) ∧
    ∀ first ∈ final.returned, ∀ second ∈ final.returned, first = second := by
  have invariant : (final.Agreed fun _ => True) ∧
      final.Recovering writeMs := by
    apply Machine.exec_preserves_of_allSteps _ run undisturbed
    · exact ⟨.untouched untouched, .untouched untouched⟩
    · rintro state label next ⟨agreed, recovering⟩ ⟨prompt, meets⟩ stepped
      exact ⟨agreed.step (recovering.spares stepped) stepped,
        recovering.step agreed bounded prompt meets stepped⟩
  obtain ⟨agreed, _⟩ := invariant
  refine ⟨?_, agreed.renamed, ?_⟩
  · intro left right leftLives rightLives leftInside rightInside
    obtain ⟨_, leftHolds⟩ := TokenPhase.holds_of_inSection leftInside
    obtain ⟨_, rightHolds⟩ := TokenPhase.holds_of_inSection rightInside
    exact agreed.exclusive leftLives rightLives leftHolds rightHolds
  · intro first member second other
    have same := (agreed.returned first member).symm.trans
      (agreed.returned second other)
    cases same
    rfl

/-- A directory with a token file which is not valid. -/
def corruptDirectory : TokenDirectory Nat where
  now := 0
  alive := fun _ => true
  processes := fun _ => ⟨.idle, 0⟩
  files := []
  lock := none
  recovery := none
  owners := []
  token := some .invalid
  renamed := []
  returned := []

/-- So many operations of a process which create nothing. -/
def operations (pid count : Nat) : List (TokenLabel Nat) :=
  List.replicate count (.advance pid 0)

/-- Process 1 crashes with the lock, and process 4 as the recoverer of it.
Process 2 reaps the recovery, recovers the lock and creates the token, which
process 3 reads. -/
def crashedCreator : List (TokenLabel Nat) :=
  [.call 1] ++ operations 1 4 ++ [.advance 1 10, .pass 1400] ++
    operations 1 1 ++ [.crash 1, .call 4] ++ operations 4 5 ++
    [.advance 4 13] ++ operations 4 5 ++ [.crash 4, .call 2] ++
    operations 2 6 ++ [.pass 300] ++ operations 2 8 ++ [.advance 2 11] ++
    operations 2 15 ++ [.advance 2 12] ++ operations 2 7 ++
    [.generate 2 7] ++ operations 2 3 ++ [.call 3] ++ operations 3 1

theorem one_token_while_undisturbed_crashedCreator :
    ∃ final, tokenMachine.exec corruptDirectory crashedCreator = some final ∧
      final.returned = [7, 7] ∧
      ∀ first ∈ final.returned, ∀ second ∈ final.returned,
        first = second := by
  have returned : (tokenMachine.exec corruptDirectory crashedCreator).map
      TokenDirectory.returned = some [7, 7] := by decide +kernel
  have undisturbed : tokenMachine.AllSteps
      (fun state label => state.Prompt 1500 ∧ state.Undisturbed 500 label)
      corruptDirectory crashedCreator := by decide +kernel
  have untouched : corruptDirectory.Untouched :=
    ⟨fun _ => rfl, rfl, rfl, rfl, rfl, rfl, rfl⟩
  obtain ⟨final, run, same⟩ := Option.map_eq_some_iff.mp returned
  have agreement := one_token_while_undisturbed (by decide) untouched run
    undisturbed
  exact ⟨final, run, same, agreement.2.2⟩

/-! ## A recovery which takes the lock of a live process -/

/-- Process 1 has created the lock and not written its id when process 2 reads
the lock.  Process 1 writes its id after one second.  Process 2 compares the
time of the empty file with the clock after two and a half seconds, and
removes the lock before process 1 looks for a recovery. -/
def slowInspection : List (TokenLabel Nat) :=
  [.call 1] ++ operations 1 4 ++ [.advance 1 10, .call 2] ++
    operations 2 5 ++ [.advance 2 11] ++ operations 2 5 ++ [.pass 1000] ++
    operations 1 1 ++ [.pass 1500] ++ operations 2 7 ++ operations 1 3 ++
    operations 2 3 ++ [.advance 2 12] ++ operations 2 4

/-- Both processes read the token, and process 2 renames what process 1 has
published. -/
def bothCreate : List (TokenLabel Nat) :=
  operations 1 1 ++ operations 2 1 ++ operations 1 2 ++ [.generate 1 7] ++
    operations 1 1 ++ operations 2 2 ++ [.generate 2 8] ++ operations 2 1 ++
    operations 1 1 ++ operations 2 2

/-- All live processes are prompt, and yet two of them are in the section, a
valid token is renamed away and two calls return different tokens. -/
theorem slowInspection_splits_token :
    (∃ middle, tokenMachine.exec corruptDirectory slowInspection =
        some middle ∧
      middle.alive 1 = true ∧ middle.alive 2 = true ∧
      (middle.processes 1).phase.inSection = true ∧
      (middle.processes 2).phase.inSection = true) ∧
    (∃ final, tokenMachine.exec corruptDirectory
        (slowInspection ++ bothCreate) = some final ∧
      final.renamed = [.invalid, .valid 7] ∧ final.returned = [7, 8]) ∧
    tokenMachine.AllSteps (fun state _ => state.Prompt lockStaleMs)
      corruptDirectory
      (slowInspection ++ bothCreate) := by
  have inside : (tokenMachine.exec corruptDirectory slowInspection).map
      (fun middle => (middle.alive 1, middle.alive 2,
        (middle.processes 1).phase.inSection,
        (middle.processes 2).phase.inSection)) =
      some (true, true, true, true) := by decide +kernel
  have created : (tokenMachine.exec corruptDirectory
      (slowInspection ++ bothCreate)).map
        (fun final => (final.renamed, final.returned)) =
      some ([.invalid, .valid 7], [7, 8]) := by decide +kernel
  refine ⟨?_, ?_, by decide +kernel⟩
  · obtain ⟨middle, run, same⟩ := Option.map_eq_some_iff.mp inside
    simp only [Prod.mk.injEq] at same
    exact ⟨middle, run, same⟩
  · obtain ⟨final, run, same⟩ := Option.map_eq_some_iff.mp created
    simp only [Prod.mk.injEq] at same
    exact ⟨final, run, same⟩

end ChartLocker.Plugin
