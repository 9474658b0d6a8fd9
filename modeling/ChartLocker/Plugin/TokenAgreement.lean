import ChartLocker.Plugin.ControlToken

/-!
# When all processes agree on one token

While a process holds the lock it has created, the path of the lock names that
file, provided that no recovery removes the lock of a live process.  Then at
most one process is in the section, and what it publishes stays.
-/

namespace ChartLocker.Plugin

open Library

variable {Token : Type}

/-- The lock file which a process has created and has not given up. -/
def TokenPhase.holds : TokenPhase Token → Option Nat
  | .publishing lock => some lock
  | .scanning (.confirming lock) _ => some lock
  | .withdrawing lock _ _ => some lock
  | .critical lock _ => some lock
  | .releasing lock _ _ => some lock
  | _ => none

/-- The process is in the section in which a token is created. -/
def TokenPhase.inSection : TokenPhase Token → Bool
  | .critical _ _ => true
  | _ => false

/-- What a process relies on at the path of the token. -/
def TokenPhase.Ready (token : Option (TokenEntry Token)) :
    TokenPhase Token → Prop
  | .critical _ .statting | .critical _ .settingAside =>
      ∀ value, token ≠ some (.valid value)
  | .critical _ .creating | .critical _ (.linking _) => token = none
  | .releasing _ (some value) _ => token = some (.valid value)
  | _ => True

theorem TokenPhase.holds_of_inSection {phase : TokenPhase Token}
    (inside : phase.inSection = true) : ∃ lock, phase.holds = some lock := by
  cases phase with
  | critical lock _ => exact ⟨lock, rfl⟩
  | _ => cases inside

/-! ## The invariant -/

namespace TokenDirectory

/-- The file was created by the process. -/
def Created (state : TokenDirectory Token) (file pid : Nat) : Prop :=
  ∃ lease, state.files[file]? = some lease ∧ lease.owner = pid

/-- The agreement, as far as some of the processes are concerned. -/
structure Agreed (who : Nat → Prop) (state : TokenDirectory Token) :
    Prop where
  held : ∀ pid, who pid → state.alive pid = true → ∀ lock,
    (state.processes pid).phase.holds = some lock →
      state.lock = some lock ∧ state.Created lock pid
  ready : ∀ pid, who pid → state.alive pid = true →
    (state.processes pid).phase.Ready state.token
  renamed : ∀ entry ∈ state.renamed, entry = .invalid
  returned : ∀ value ∈ state.returned, state.token = some (.valid value)

/-- What a process changes besides the lock, the token and itself. -/
structure Beside (state mid : TokenDirectory Token) : Prop where
  alive : mid.alive = state.alive
  processes : mid.processes = state.processes
  lock : mid.lock = state.lock
  token : mid.token = state.token
  renamed : mid.renamed = state.renamed
  returned : mid.returned = state.returned
  created : ∀ file pid, state.Created file pid → mid.Created file pid

@[simp] theorem setProcess_self (state : TokenDirectory Token) (pid : Nat)
    (process : TokenProcess Token) :
    (state.setProcess pid process).processes pid = process :=
  Function.update_self _ _ _

theorem setProcess_other (state : TokenDirectory Token) {pid other : Nat}
    (apart : other ≠ pid) (process : TokenProcess Token) :
    (state.setProcess pid process).processes other =
      state.processes other :=
  Function.update_of_ne apart _ _

namespace Agreed

variable {who : Nat → Prop} {state mid : TokenDirectory Token} {pid : Nat}

theorem but (agreed : state.Agreed fun _ => True) (pid : Nat) :
    state.Agreed fun other => other ≠ pid where
  held other _ := agreed.held other trivial
  ready other _ := agreed.ready other trivial
  renamed := agreed.renamed
  returned := agreed.returned

theorem beside (agreed : state.Agreed who) (same : state.Beside mid) :
    mid.Agreed who where
  held other member := by
    rw [same.alive, same.processes, same.lock]
    intro living lock holds
    obtain ⟨named, created⟩ := agreed.held other member living lock holds
    exact ⟨named, same.created lock other created⟩
  ready other member := by
    rw [same.alive, same.processes, same.token]
    exact agreed.ready other member
  renamed := by
    rw [same.renamed]
    exact agreed.renamed
  returned := by
    rw [same.returned, same.token]
    exact agreed.returned

/-- The process which has moved fulfils its part. -/
theorem setProcess (agreed : state.Agreed fun other => other ≠ pid)
    {process : TokenProcess Token}
    (held : ∀ lock, process.phase.holds = some lock →
      state.lock = some lock ∧ state.Created lock pid)
    (ready : process.phase.Ready state.token) :
    (state.setProcess pid process).Agreed fun _ => True where
  held other _ := by
    by_cases own : other = pid
    · subst own
      rw [setProcess_self]
      exact fun _ => held
    · rw [setProcess_other _ own]
      exact agreed.held other own
  ready other _ := by
    by_cases own : other = pid
    · subst own
      rw [setProcess_self]
      exact fun _ => ready
    · rw [setProcess_other _ own]
      exact agreed.ready other own
  renamed := agreed.renamed
  returned := agreed.returned

theorem toPhase (agreed : state.Agreed fun other => other ≠ pid)
    {phase : TokenPhase Token}
    (held : ∀ lock, phase.holds = some lock →
      state.lock = some lock ∧ state.Created lock pid)
    (ready : phase.Ready state.token) :
    (state.toPhase pid phase).Agreed fun _ => True :=
  agreed.setProcess held ready

/-- A process without a lock relies on nothing. -/
theorem toIdle (agreed : state.Agreed fun other => other ≠ pid)
    {phase : TokenPhase Token} (idle : phase.holds = none) :
    (state.toPhase pid phase).Agreed fun _ => True := by
  apply agreed.toPhase
  · intro lock holds
    rw [idle] at holds
    cases holds
  · cases phase with
    | critical | releasing => cases idle
    | _ => exact trivial

theorem finish (agreed : state.Agreed fun other => other ≠ pid)
    {result : Option Token}
    (published : ∀ value ∈ result, state.token = some (.valid value)) :
    (state.finish pid result).Agreed fun _ => True := by
  unfold TokenDirectory.finish
  refine toIdle ?_ rfl
  refine ⟨agreed.held, agreed.ready, agreed.renamed, ?_⟩
  intro value member
  rcases List.mem_append.mp member with earlier | last
  · exact agreed.returned value earlier
  · exact published value (by simpa using last)

theorem retry (agreed : state.Agreed fun other => other ≠ pid) :
    (state.retry pid).Agreed fun _ => True := by
  unfold TokenDirectory.retry
  split
  · apply agreed.finish
    intro value impossible
    cases impossible
  · exact agreed.toIdle rfl

/-- Two live processes do not hold a lock. -/
theorem exclusive (agreed : state.Agreed fun _ => True) {left right : Nat}
    (leftLives : state.alive left = true)
    (rightLives : state.alive right = true) {first second : Nat}
    (leftHolds : (state.processes left).phase.holds = some first)
    (rightHolds : (state.processes right).phase.holds = some second) :
    left = right := by
  obtain ⟨named, lease, stored, rfl⟩ :=
    agreed.held left trivial leftLives first leftHolds
  obtain ⟨again, other, found, rfl⟩ :=
    agreed.held right trivial rightLives second rightHolds
  obtain rfl := Option.some.inj (named.symm.trans again)
  obtain rfl := Option.some.inj (stored.symm.trans found)
  rfl

/-- The path of the lock is unlinked while nobody else holds a lock. -/
theorem unlocked (agreed : state.Agreed who)
    (nobody : ∀ pid, who pid → state.alive pid = true →
      (state.processes pid).phase.holds = none) :
    (state.unlink .lock).Agreed who where
  held other member living lock holds := by
    cases (nobody other member living).symm.trans holds
  ready := agreed.ready
  renamed := agreed.renamed
  returned := agreed.returned

/-- The token is replaced while nobody else holds a lock. -/
theorem replaced (agreed : state.Agreed fun other => other ≠ pid)
    (nobody : ∀ other, other ≠ pid → state.alive other = true →
      (state.processes other).phase.holds = none)
    {token : Option (TokenEntry Token)}
    {renamed : List (TokenEntry Token)}
    (spared : ∀ entry ∈ renamed, entry = .invalid)
    (kept : ∀ value, state.token = some (.valid value) →
      token = some (.valid value)) :
    { state with token := token, renamed := renamed
      : TokenDirectory Token }.Agreed fun other => other ≠ pid where
  held := agreed.held
  ready other apart living := by
    have none := nobody other apart living
    change (state.processes other).phase.Ready token
    cases phase : (state.processes other).phase with
    | critical | releasing =>
        rw [phase] at none
        cases none
    | _ => exact trivial
  renamed := spared
  returned value member := kept value (agreed.returned value member)

end Agreed

/-! ## The operations -/

section Operations

variable {state next : TokenDirectory Token} {pid : Nat}

theorem Beside.refl (state : TokenDirectory Token) : state.Beside state :=
  ⟨rfl, rfl, rfl, rfl, rfl, rfl, fun _ _ created => created⟩

theorem beside_of_create {inode : Nat}
    (created : state.create pid inode = some next) :
    state.Beside next ∧ next.Created state.files.length pid := by
  unfold TokenDirectory.create at created
  split at created
  · contradiction
  · cases created
    refine ⟨⟨rfl, rfl, rfl, rfl, rfl, rfl, ?_⟩, ?_⟩
    · rintro file owner ⟨lease, stored, rfl⟩
      have inside := (List.getElem?_eq_some_iff.mp stored).1
      exact ⟨lease, (List.getElem?_append_left inside).trans stored, rfl⟩
    · exact ⟨_, List.getElem?_concat_length, rfl⟩

theorem beside_write (state : TokenDirectory Token) (file : Nat) :
    state.Beside (state.write file) := by
  refine ⟨rfl, rfl, rfl, rfl, rfl, rfl, ?_⟩
  rintro other owner ⟨lease, stored, rfl⟩
  by_cases same : file = other
  · subst same
    exact ⟨{ lease with written := true, modified := state.now },
      by simp [TokenDirectory.write, stored], rfl⟩
  · exact ⟨lease, by simp [TokenDirectory.write, same, stored], rfl⟩

/-- Only the path of the lock matters to the others. -/
theorem beside_unlinkOwnedPath (state : TokenDirectory Token)
    (path : LeasePath) (apart : path ≠ .lock) (identity : Nat)
    (stage : Removal) :
    state.Beside (state.unlinkOwnedPath path identity stage).1 := by
  cases stage with
  | checking => exact .refl state
  | unlinking =>
      cases path with
      | lock => exact absurd rfl apart
      | recovery => exact ⟨rfl, rfl, rfl, rfl, rfl, rfl, fun _ _ => id⟩
      | owner => exact ⟨rfl, rfl, rfl, rfl, rfl, rfl, fun _ _ => id⟩

/-- What a process that holds a lock knows about the others. -/
theorem Agreed.alone (agreed : state.Agreed fun _ => True)
    (living : state.alive pid = true) {lock : Nat}
    (holds : (state.processes pid).phase.holds = some lock) (other : Nat)
    (apart : other ≠ pid) (lives : state.alive other = true) :
    (state.processes other).phase.holds = none := by
  cases held : (state.processes other).phase.holds with
  | none => rfl
  | some second =>
      exact absurd (agreed.exclusive lives living held holds) apart

/-- A process gives up the lock which it holds. -/
theorem Agreed.ownRemoval (agreed : state.Agreed fun _ => True)
    (living : state.alive pid = true) {lock : Nat}
    (holds : (state.processes pid).phase.holds = some lock)
    (stage : Removal) :
    (state.unlinkOwnedPath .lock lock stage).1.Agreed
      fun other => other ≠ pid := by
  cases stage with
  | checking => exact agreed.but pid
  | unlinking => exact (agreed.but pid).unlocked (agreed.alone living holds)

/-- What the lock of the moving process is known to be over changes which do
not matter to the others. -/
theorem Agreed.own (agreed : state.Agreed fun _ => True)
    (living : state.alive pid = true) {mid : TokenDirectory Token}
    (same : state.Beside mid) {lock : Nat}
    (holds : (state.processes pid).phase.holds = some lock) :
    mid.lock = some lock ∧ mid.Created lock pid := by
  obtain ⟨named, created⟩ := agreed.held pid trivial living lock holds
  exact ⟨same.lock.trans named, same.created lock pid created⟩

theorem Agreed.scanned (agreed : state.Agreed fun _ => True)
    (living : state.alive pid = true) {mid : TokenDirectory Token}
    (same : state.Beside mid) {purpose : ScanPurpose} {scan : Scan}
    (phase : (state.processes pid).phase = .scanning purpose scan)
    (busy : Bool) :
    (mid.scanned pid busy purpose).Agreed fun _ => True := by
  have others := (agreed.but pid).beside same
  cases purpose with
  | entering =>
      cases busy with
      | true => exact others.retry
      | false => exact others.toIdle rfl
  | confirming lock =>
      have holds : (state.processes pid).phase.holds = some lock := by
        rw [phase]
        rfl
      have own := agreed.own living same holds
      apply others.toPhase
      · intro held holds
        cases busy <;> cases holds <;> exact own
      · cases busy <;> exact trivial

/-- A scan which goes on. -/
theorem Agreed.scanning (agreed : state.Agreed fun _ => True)
    (living : state.alive pid = true) {mid : TokenDirectory Token}
    (same : state.Beside mid) {purpose : ScanPurpose} {scan : Scan}
    (phase : (state.processes pid).phase = .scanning purpose scan)
    (later : Scan) :
    (mid.toPhase pid (.scanning purpose later)).Agreed fun _ => True := by
  have others := (agreed.but pid).beside same
  cases purpose with
  | entering => exact others.toIdle rfl
  | confirming lock =>
      have holds : (state.processes pid).phase.holds = some lock := by
        rw [phase]
        rfl
      have own := agreed.own living same holds
      apply others.toPhase
      · rintro _ ⟨⟩
        exact own
      · exact trivial

theorem Agreed.scan (agreed : state.Agreed fun _ => True)
    (living : state.alive pid = true) {choice : Nat} {purpose : ScanPurpose}
    {scan : Scan}
    (phase : (state.processes pid).phase = .scanning purpose scan)
    (moved : state.scan pid choice purpose scan = some next) :
    next.Agreed fun _ => True := by
  have still := Beside.refl state
  cases scan with
  | listing =>
      cases moved
      exact agreed.scanning living still phase _
  | choosing entries =>
      simp only [TokenDirectory.scan] at moved
      split at moved
      · split at moved
        · cases moved
          exact agreed.scanned living still phase _
        · cases moved
          exact agreed.scanning living still phase _
      · obtain ⟨owner, _, rfl⟩ := Option.map_eq_some_iff.mp moved
        exact agreed.scanning living still phase _
  | probing owner probe entries =>
      simp only [TokenDirectory.scan, Option.some.injEq] at moved
      subst moved
      split <;> exact agreed.scanning living still phase _
  | reapingFixed owner file stage entries =>
      cases moved
      exact agreed.scanning living
        (beside_unlinkOwnedPath state .recovery (by decide) file stage)
        phase _
  | reapingOwner owner file stage entries =>
      cases moved
      exact agreed.scanning living
        (beside_unlinkOwnedPath state (.owner owner) (by simp) file stage)
        phase _
  | probingFixed probe =>
      simp only [TokenDirectory.scan, Option.some.injEq] at moved
      subst moved
      split
      · exact agreed.scanning living still phase _
      · exact agreed.scanned living still phase _
      · exact agreed.scanned living still phase _
      · exact agreed.scanning living still phase _
  | reapingOrphan file stage =>
      have same := beside_unlinkOwnedPath state .recovery (by decide) file
        stage
      simp only [TokenDirectory.scan, Option.some.injEq] at moved
      subst moved
      split
      · exact agreed.scanning living same phase _
      · exact agreed.scanned living same phase _

/-- The section: the token is read under the lock, so that what is renamed is
invalid and nobody publishes in between. -/
theorem Agreed.criticalStep (agreed : state.Agreed fun _ => True)
    (living : state.alive pid = true) {lock : Nat}
    {step : CriticalStep Token}
    (phase : (state.processes pid).phase = .critical lock step)
    (moved : state.criticalStep pid lock step = some next) :
    next.Agreed fun _ => True := by
  have holds : (state.processes pid).phase.holds = some lock := by
    rw [phase]
    rfl
  have own := agreed.held pid trivial living lock holds
  have others := agreed.but pid
  have alone := agreed.alone living holds
  have ready := agreed.ready pid trivial living
  rw [phase] at ready
  have kept : ∀ {later : TokenPhase Token}, later.holds = some lock →
      ∀ held, later.holds = some held →
        state.lock = some held ∧ state.Created held pid := by
    intro later same held found
    cases same.symm.trans found
    exact own
  cases step with
  | reading =>
      cases moved
      split
      · next winner valid => exact others.toPhase (kept rfl) valid
      · next unread =>
        apply others.toPhase (kept rfl)
        intro value valid
        exact unread value valid
  | statting =>
      cases moved
      cases token : state.token with
      | none => exact others.toPhase (kept rfl) token
      | some entry =>
          apply others.toPhase (kept rfl)
          rw [token] at ready ⊢
          exact ready
  | settingAside =>
      cases moved
      apply Agreed.toPhase
      · apply others.replaced alone
        · intro entry member
          rcases List.mem_append.mp member with earlier | last
          · exact agreed.renamed entry earlier
          · cases entry with
            | invalid => rfl
            | valid value =>
                exact absurd (by simpa using last) (ready value)
        · intro value valid
          exact absurd valid (ready value)
      · exact kept rfl
      · rfl
  | creating => contradiction
  | linking token =>
      have absent : state.token = none := ready
      simp only [TokenDirectory.criticalStep, absent] at moved
      cases moved
      apply Agreed.toPhase
      · apply others.replaced alone agreed.renamed
        intro value valid
        rw [absent] at valid
        cases valid
      · exact kept rfl
      · rfl

/-- The unlink of a recovery takes the lock of a live process. -/
def takesLive (state : TokenDirectory Token) : TokenLabel Token → Bool
  | .advance pid _ =>
      match (state.processes pid).phase with
      | .removing _ _ .unlinking =>
          (state.lock.bind fun lock => state.files[lock]?).any fun lease =>
            state.alive lease.owner
      | _ => false
  | _ => false

/-- A recovery removes the lock of a dead process. -/
theorem Agreed.recovery (agreed : state.Agreed fun _ => True)
    {owner file choice : Nat} {stage : Removal}
    (phase : (state.processes pid).phase = .removing owner file stage)
    (spares : state.takesLive (.advance pid choice) = false) :
    (state.unlinkOwnedPath .lock file stage).1.Agreed
      fun other => other ≠ pid := by
  cases stage with
  | checking => exact agreed.but pid
  | unlinking =>
      apply (agreed.but pid).unlocked
      intro other apart lives
      cases holds : (state.processes other).phase.holds with
      | none => rfl
      | some lock =>
          obtain ⟨named, lease, stored, rfl⟩ :=
            agreed.held other trivial lives lock holds
          simp [takesLive, phase, named, stored, lives] at spares

/-- A process takes the free lock path, so that nobody else holds a lock. -/
theorem Agreed.createsLock (agreed : state.Agreed fun _ => True)
    (free : state.lock = none) {choice : Nat}
    (made : state.create pid choice = some next) :
    ({ next with lock := some state.files.length
      : TokenDirectory Token }.toPhase pid
        (.publishing state.files.length)).Agreed fun _ => True := by
  obtain ⟨same, own⟩ := beside_of_create made
  have nobody : ∀ other, other ≠ pid → state.alive other = true →
      (state.processes other).phase.holds = none := by
    intro other _ lives
    cases holds : (state.processes other).phase.holds with
    | none => rfl
    | some lock =>
        have named := (agreed.held other trivial lives lock holds).1
        rw [free] at named
        cases named
  apply Agreed.toPhase
  · have kept := (agreed.but pid).beside same
    refine ⟨?_, kept.ready, kept.renamed, kept.returned⟩
    intro other apart lives lock holds
    rw [same.alive] at lives
    change (next.processes other).phase.holds = some lock at holds
    rw [same.processes, nobody other apart lives] at holds
    cases holds
  · rintro _ ⟨⟩
    exact ⟨rfl, own⟩
  · exact trivial

theorem Agreed.advance (agreed : state.Agreed fun _ => True)
    (living : state.alive pid = true) {choice : Nat}
    (spares : state.takesLive (.advance pid choice) = false)
    (moved : state.advance pid choice = some next) :
    next.Agreed fun _ => True := by
  have others := agreed.but pid
  unfold TokenDirectory.advance at moved
  split at moved
  · contradiction
  · split at moved
    · next existing valid =>
      cases moved
      apply others.finish
      rintro _ ⟨⟩
      exact valid
    · cases moved
      apply others.setProcess
      · rintro _ ⟨⟩
      · exact trivial
  · next purpose scan phase => exact agreed.scan living phase moved
  · next phase =>
    split at moved
    · cases moved
      exact others.toIdle rfl
    · next free =>
      obtain ⟨created, made, rfl⟩ := Option.map_eq_some_iff.mp moved
      exact agreed.createsLock free made
  · next lock phase =>
    cases moved
    have same := beside_write state lock
    apply (others.beside same).toPhase
    · rintro _ ⟨⟩
      exact agreed.own living same (by rw [phase]; rfl)
    · exact trivial
  · next lock stage throws phase =>
    have holds : (state.processes pid).phase.holds = some lock := by
      rw [phase]
      rfl
    have removed := agreed.ownRemoval living holds stage
    simp only [Option.some.injEq] at moved
    subst moved
    split
    · next again =>
      cases stage with
      | checking =>
          apply removed.toPhase
          · rintro _ ⟨⟩
            exact agreed.held pid trivial living lock holds
          · exact trivial
      | unlinking => cases again
    · split
      · apply removed.finish
        intro value impossible
        cases impossible
      · exact removed.retry
  · obtain ⟨created, made, rfl⟩ := Option.map_eq_some_iff.mp moved
    have same := (beside_of_create made).1
    refine Agreed.toIdle (others.beside ?_) rfl
    exact ⟨same.alive, same.processes, same.lock, same.token, same.renamed,
      same.returned, same.created⟩
  · next owner phase =>
    cases moved
    exact (others.beside (beside_write state owner)).toIdle rfl
  · split at moved
    · cases moved
      refine Agreed.toIdle (others.beside ?_) rfl
      exact ⟨rfl, rfl, rfl, rfl, rfl, rfl, fun _ _ => id⟩
    · cases moved
      exact others.toIdle rfl
  · simp only [Option.some.injEq] at moved
    subst moved
    split <;> exact others.toIdle rfl
  · next owner file stage phase =>
    cases moved
    have removed := agreed.recovery phase spares
    apply removed.toIdle
    split <;> rfl
  · next owner stage phase =>
    cases moved
    have same := beside_unlinkOwnedPath state .recovery (by decide) owner
      stage
    apply (others.beside same).toIdle
    split <;> rfl
  · next owner stage phase =>
    have same := beside_unlinkOwnedPath state (.owner owner) (by simp) owner
      stage
    simp only [Option.some.injEq] at moved
    subst moved
    split
    · exact (others.beside same).toIdle rfl
    · exact (others.beside same).retry
  · next lock step phase => exact agreed.criticalStep living phase moved
  · next lock result stage phase =>
    have holds : (state.processes pid).phase.holds = some lock := by
      rw [phase]
      rfl
    have ready := agreed.ready pid trivial living
    rw [phase] at ready
    have removed := agreed.ownRemoval living holds stage
    simp only [Option.some.injEq] at moved
    subst moved
    split
    · next again =>
      cases stage with
      | checking =>
          apply removed.toPhase
          · rintro _ ⟨⟩
            exact agreed.held pid trivial living lock holds
          · cases result <;> exact ready
      | unlinking => cases again
    · apply removed.finish
      rintro value ⟨⟩
      cases stage <;> exact ready

/-- Only a live process moves. -/
theorem living_eq_some {moved : Option (TokenDirectory Token)} :
    state.living pid moved = some next ↔
      state.alive pid = true ∧ moved = some next := by
  simp [living]

theorem Agreed.step (agreed : state.Agreed fun _ => True)
    {label : TokenLabel Token} (spares : state.takesLive label = false)
    (stepped : state.step label = some next) :
    next.Agreed fun _ => True := by
  cases label with
  | call pid =>
      obtain ⟨living, moved⟩ := living_eq_some.mp stepped
      unfold TokenDirectory.call at moved
      split at moved
      · cases moved
        exact (agreed.but pid).toIdle rfl
      · contradiction
  | advance pid choice =>
      obtain ⟨living, moved⟩ := living_eq_some.mp stepped
      exact agreed.advance living spares moved
  | generate pid token =>
      obtain ⟨living, moved⟩ := living_eq_some.mp stepped
      unfold TokenDirectory.generate at moved
      split at moved
      · next lock phase =>
        cases moved
        have ready := agreed.ready pid trivial living
        rw [phase] at ready
        apply (agreed.but pid).toPhase
        · rintro _ ⟨⟩
          exact agreed.own living (.refl state) (by rw [phase]; rfl)
        · exact ready
      · contradiction
  | fail pid =>
      obtain ⟨living, moved⟩ := living_eq_some.mp stepped
      unfold TokenDirectory.fail at moved
      split at moved
      · next lock phase =>
        cases moved
        apply (agreed.but pid).toPhase
        · rintro _ ⟨⟩
          exact agreed.own living (.refl state) (by rw [phase]; rfl)
        · exact trivial
      · next lock scan phase =>
        cases moved
        apply (agreed.but pid).toPhase
        · rintro _ ⟨⟩
          exact agreed.own living (.refl state) (by rw [phase]; rfl)
        · exact trivial
      · next lock step phase =>
        cases moved
        apply (agreed.but pid).toPhase
        · rintro _ ⟨⟩
          exact agreed.own living (.refl state) (by rw [phase]; rfl)
        · exact trivial
      · contradiction
  | crash pid =>
      cases stepped
      have earlier : ∀ other,
          Function.update state.alive pid false other = true →
            state.alive other = true := by
        intro other lives
        by_cases own : other = pid
        · subst own
          rw [Function.update_self] at lives
          cases lives
        · rwa [Function.update_of_ne own] at lives
      exact ⟨fun other _ living => agreed.held other trivial
          (earlier other living),
        fun other _ living => agreed.ready other trivial
          (earlier other living), agreed.renamed, agreed.returned⟩
  | pass ms =>
      cases stepped
      exact ⟨agreed.held, agreed.ready, agreed.renamed, agreed.returned⟩

end Operations

/-! ## Whole runs -/

theorem Agreed.untouched {state : TokenDirectory Token}
    (untouched : state.Untouched) : state.Agreed fun _ => True := by
  obtain ⟨idle, _, _, _, _, renamed, returned⟩ := untouched
  constructor
  · intro pid _ _ lock holds
    rw [idle pid] at holds
    cases holds
  · intro pid _ _
    rw [idle pid]
    exact trivial
  · intro entry member
    rw [renamed] at member
    cases member
  · intro value member
    rw [returned] at member
    cases member

end TokenDirectory

end ChartLocker.Plugin
