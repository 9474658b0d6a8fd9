import ChartLocker.Library.KeyedTable
import ChartLocker.Library.Machine
import ChartLocker.Warm.Regions
import ChartLocker.Warm.State
import Mathlib.Data.List.Sort

/-!
# The registry of warm jobs

`start_warm` reaps the registry and inserts its job under one write lock.
`reap` first drops the finished jobs which are past their lifetime, and then
the oldest of the others as long as too many are left.  The registry is a hash
map, so that its entries are listed in any order; a job whose mutex is held is
passed over.
-/

namespace ChartLocker.Warm

open Library

def maxRetainedWarmJobs : Nat := 128
def warmJobTtlSecs : Int := 3600

/-- What the registry reads of a job. -/
structure RegisteredJob where
  id : String
  order : Nat
  state : WarmState
  cancel : Bool
  finishedAt : Option Int
  regionId : Option String
  createdAt : Int
deriving DecidableEq, Repr

abbrev WarmJobs := KeyedTable RegisteredJob.id

def RegisteredJob.expired (job : RegisteredJob) (now : Int) : Bool :=
  job.finishedAt.any fun finished => !decide (now - finished < warmJobTtlSecs)

/-- The ids and the orders of the finished jobs, oldest first. -/
def finishedOldestFirst (held : String → Bool) (jobs : WarmJobs) :
    List (String × Nat) :=
  ((jobs.rows.filter fun job => !held job.id && job.finishedAt.isSome).map
    fun job => (job.id, job.order)).mergeSort
      fun left right => decide (left.2 ≤ right.2)

def reap (now : Int) (held : String → Bool) (jobs : WarmJobs) : WarmJobs :=
  let retained := jobs.deleteWhere fun job => !held job.id && job.expired now
  if retained.rows.length ≤ maxRetainedWarmJobs then
    retained
  else
    let oldest := (finishedOldestFirst held retained).take
      (retained.rows.length - maxRetainedWarmJobs)
    retained.deleteWhere fun job => (oldest.map Prod.fst).contains job.id

/-- The jobs which count as running, among them those whose mutex is held. -/
def activeJobs (held : String → Bool) (jobs : WarmJobs) : Nat :=
  (jobs.rows.filter fun job =>
    held job.id || decide (job.state = .running)).length

/-! ## Starts, completions and cancellations -/

structure JobRegistry where
  bootId : String
  warmSeq : Nat
  /-- The orders of the starts which have not registered their job yet. -/
  starting : List Nat
  jobs : WarmJobs

inductive RegistryLabel where
  /-- A start takes its order. -/
  | take
  /-- A start reaps the registry and registers its job.  The map lists its
  entries in some order, and the mutexes of some jobs are held while it is
  reaped, and of others while the running jobs are counted. -/
  | register (order : Nat) (regionId : Option String) (now createdAt : Int)
      (listing : WarmJobs) (held counted : List String)
  /-- A start is dropped. -/
  | drop (order : Nat)
  /-- A driver ends. -/
  | finish (id : String) (state : WarmState) (now : Int)
  | cancel (id : String)

namespace JobRegistry

def newJob (registry : JobRegistry) (order : Nat) (regionId : Option String)
    (createdAt : Int) : RegisteredJob where
  id := warmJobId registry.bootId order
  order := order
  state := .running
  cancel := false
  finishedAt := none
  regionId := regionId
  createdAt := createdAt

def step (registry : JobRegistry) : RegistryLabel → Option JobRegistry
  | .take => some { registry with
      warmSeq := registry.warmSeq + 1
      starting := registry.warmSeq :: registry.starting }
  | .register order regionId now createdAt listing held counted =>
      if order ∈ registry.starting ∧
          listing.rows.isPerm registry.jobs.rows = true then
        let reaped := reap now held.contains listing
        let starting := registry.starting.erase order
        if activeJobs counted.contains reaped ≥ maxActiveWarmJobs then
          some { registry with
            starting := starting
            jobs := reaped }
        else
          some { registry with
            starting := starting
            jobs := reaped.insertOrReplace
              (registry.newJob order regionId createdAt) }
      else
        none
  | .drop order =>
      if order ∈ registry.starting then
        some { registry with starting := registry.starting.erase order }
      else
        none
  | .finish id state now =>
      if state ≠ .running ∧ (registry.jobs.lookup id).any fun job =>
          decide (job.state = .running) then
        some { registry with
          jobs := registry.jobs.updateWhere (fun job => job.id == id)
            (fun job => { job with state := state, finishedAt := some now })
            fun _ => rfl }
      else
        none
  | .cancel id => some { registry with
      jobs := registry.jobs.updateWhere (fun job => job.id == id)
        (fun job => { job with cancel := true }) fun _ => rfl }

def machine : Machine JobRegistry RegistryLabel where
  initial registry := registry.warmSeq = 0 ∧ registry.starting = [] ∧
    registry.jobs.rows = []
  step := step

end JobRegistry

/-! ## What a reap keeps -/

/-- A reap keeps the unfinished jobs, leaves no more entries than it may, and
drops a finished job for its age or before all younger ones. -/
structure ReapsSoundly (now : Int) (before after : WarmJobs) : Prop where
  subset : ∀ job ∈ after.rows, job ∈ before.rows
  keeps : ∀ job ∈ before.rows, job.finishedAt = none → job ∈ after.rows
  bounded : after.rows.length ≤ max maxRetainedWarmJobs
    (after.rows.filter fun job => job.finishedAt.isNone).length
  drops : ∀ job ∈ before.rows, job ∉ after.rows →
    (∃ finished, job.finishedAt = some finished ∧
      warmJobTtlSecs ≤ now - finished) ∨
    ∀ kept ∈ after.rows, kept.finishedAt.isSome = true →
      job.order < kept.order

section Reap

variable {held : String → Bool} {jobs : WarmJobs} {now : Int}

theorem mem_finishedOldestFirst {entry : String × Nat} :
    entry ∈ finishedOldestFirst held jobs ↔
      ∃ job ∈ jobs.rows, held job.id = false ∧ job.finishedAt.isSome = true ∧
        entry = (job.id, job.order) := by
  unfold finishedOldestFirst
  rw [List.mem_mergeSort, List.mem_map]
  constructor
  · rintro ⟨job, member, rfl⟩
    obtain ⟨listed, chosen⟩ := List.mem_filter.mp member
    rw [Bool.and_eq_true, Bool.not_eq_true'] at chosen
    exact ⟨job, listed, chosen.1, chosen.2, rfl⟩
  · rintro ⟨job, listed, free, finished, rfl⟩
    refine ⟨job, List.mem_filter.mpr ⟨listed, ?_⟩, rfl⟩
    rw [free, finished]
    rfl

theorem sorted_finishedOldestFirst :
    (finishedOldestFirst held jobs).Pairwise fun left right =>
      left.2 ≤ right.2 := by
  unfold finishedOldestFirst
  refine List.Pairwise.imp (fun related => of_decide_eq_true related)
    (List.pairwise_mergeSort ?_ ?_ _)
  · intro first second third before after
    simp only [decide_eq_true_eq] at before after ⊢
    exact Nat.le_trans before after
  · intro left right
    simpa using Nat.le_total left.2 right.2

theorem nodup_finishedOldestFirst :
    ((finishedOldestFirst held jobs).map Prod.fst).Nodup := by
  have ids := jobs.nodup.sublist (((List.filter_sublist
    (p := fun job => !held job.id && job.finishedAt.isSome)).map
      RegisteredJob.id))
  unfold finishedOldestFirst
  rw [((List.mergeSort_perm _ _).map Prod.fst).nodup_iff, List.map_map]
  exact ids

/-- A finished job in front of another in the sorted list is older. -/
theorem older_of_take {count : Nat} {dropped kept : String × Nat}
    (first : dropped ∈ (finishedOldestFirst held jobs).take count)
    (later : kept ∈ (finishedOldestFirst held jobs).drop count) :
    dropped.2 ≤ kept.2 := by
  have sorted : (finishedOldestFirst held jobs).Pairwise fun left right =>
      left.2 ≤ right.2 := sorted_finishedOldestFirst
  rw [← List.take_append_drop count (finishedOldestFirst held jobs),
    List.pairwise_append] at sorted
  exact sorted.2.2 dropped first kept later

theorem not_expired_of_unfinished {job : RegisteredJob}
    (unfinished : job.finishedAt = none) : job.expired now = false := by
  rw [RegisteredJob.expired, unfinished, Option.any_none]

theorem past_ttl_of_expired {job : RegisteredJob}
    (expired : job.expired now = true) :
    ∃ finished, job.finishedAt = some finished ∧
      warmJobTtlSecs ≤ now - finished := by
  cases ended : job.finishedAt with
  | none =>
      rw [not_expired_of_unfinished ended] at expired
      exact absurd expired Bool.false_ne_true
  | some finished =>
      rw [RegisteredJob.expired, ended] at expired
      exact ⟨finished, rfl, by simpa using expired⟩

/-- Dropping the oldest finished jobs leaves as many entries as are retained,
or only unfinished ones. -/
theorem reap_bounded {retained : WarmJobs} {oldest : List (String × Nat)}
    (many : ¬retained.rows.length ≤ maxRetainedWarmJobs)
    (chosen : (finishedOldestFirst (fun _ => false) retained).take
      (retained.rows.length - maxRetainedWarmJobs) = oldest) :
    (retained.deleteWhere fun job =>
        (oldest.map Prod.fst).contains job.id).rows.length ≤
      max maxRetainedWarmJobs ((retained.deleteWhere fun job =>
        (oldest.map Prod.fst).contains job.id).rows.filter fun job =>
          job.finishedAt.isNone).length := by
  have distinct : (oldest.map Prod.fst).Nodup := by
    rw [← chosen, List.map_take]
    exact nodup_finishedOldestFirst.sublist (List.take_sublist _ _)
  have present : ∀ id ∈ oldest.map Prod.fst,
      id ∈ retained.rows.map RegisteredJob.id := by
    intro id member
    obtain ⟨entry, old, rfl⟩ := List.mem_map.mp member
    rw [← chosen] at old
    obtain ⟨job, listed, _, _, rfl⟩ :=
      mem_finishedOldestFirst.mp (List.mem_of_mem_take old)
    exact List.mem_map.mpr ⟨job, listed, rfl⟩
  have dropped := retained.length_deleteWhere_keys distinct present
  rw [List.length_map] at dropped
  have length : oldest.length = min (retained.rows.length - maxRetainedWarmJobs)
      (finishedOldestFirst (fun _ => false) retained).length := by
    rw [← chosen, List.length_take]
  rcases Nat.le_total (retained.rows.length - maxRetainedWarmJobs)
    (finishedOldestFirst (fun _ => false) retained).length with enough | few
  · rw [Nat.min_eq_left enough] at length
    refine Nat.le_trans ?_ (Nat.le_max_left _ _)
    omega
  · -- Every finished job is dropped.
    rw [List.take_of_length_le few] at chosen
    refine Nat.le_trans ?_ (Nat.le_max_right _ _)
    rw [List.filter_eq_self.mpr]
    intro job member
    obtain ⟨listed, spared⟩ := KeyedTable.mem_deleteWhere.mp member
    cases ended : job.finishedAt with
    | none => rfl
    | some finished =>
        have named : job.id ∈ oldest.map Prod.fst := by
          rw [← chosen]
          refine List.mem_map.mpr ⟨(job.id, job.order), ?_, rfl⟩
          refine mem_finishedOldestFirst.mpr ⟨job, listed, rfl, ?_, rfl⟩
          rw [ended]
          rfl
        rw [List.contains_iff_mem.mpr named] at spared
        exact absurd spared.symm Bool.false_ne_true

/-- No mutex is held and no two jobs have one order. -/
theorem reap_sound_of_distinct
    (distinct : ∀ left ∈ jobs.rows, ∀ right ∈ jobs.rows,
      left.order = right.order → left = right) :
    ReapsSoundly now jobs (reap now (fun _ => false) jobs) := by
  simp only [reap, Bool.not_false, Bool.true_and]
  generalize same : (jobs.deleteWhere fun job => job.expired now) = retained
  have member_iff : ∀ job, job ∈ retained.rows ↔
      job ∈ jobs.rows ∧ job.expired now = false := by
    intro job
    rw [← same]
    exact KeyedTable.mem_deleteWhere
  split
  · next few =>
    constructor
    · exact fun job member => ((member_iff job).mp member).1
    · exact fun job member unfinished =>
        (member_iff job).mpr ⟨member, not_expired_of_unfinished unfinished⟩
    · exact few.trans (Nat.le_max_left _ _)
    · intro job member missing
      refine .inl (past_ttl_of_expired ?_)
      by_contra young
      rw [Bool.not_eq_true] at young
      exact missing ((member_iff job).mpr ⟨member, young⟩)
  · next many =>
    generalize chosen : (finishedOldestFirst (fun _ => false) retained).take
      (retained.rows.length - maxRetainedWarmJobs) = oldest
    have kept_iff : ∀ job, job ∈ (retained.deleteWhere fun job =>
        (oldest.map Prod.fst).contains job.id).rows ↔
          job ∈ retained.rows ∧ job.id ∉ oldest.map Prod.fst := by
      intro job
      rw [KeyedTable.mem_deleteWhere, ← Bool.not_eq_true,
        List.contains_iff_mem]
    -- An entry of the sorted list names one job of the registry.
    have entry_iff : ∀ job ∈ retained.rows, ∀ entry ∈
        finishedOldestFirst (fun _ => false) retained, entry.1 = job.id →
          job.finishedAt.isSome = true ∧ entry.2 = job.order := by
      intro job listed entry member named
      obtain ⟨other, otherListed, _, finished, rfl⟩ :=
        mem_finishedOldestFirst.mp member
      rw [← retained.eq_of_key_eq otherListed listed named]
      exact ⟨finished, rfl⟩
    have oldest_mem : ∀ entry ∈ oldest, entry ∈
        finishedOldestFirst (fun _ => false) retained := by
      intro entry member
      rw [← chosen] at member
      exact List.mem_of_mem_take member
    constructor
    · intro job member
      exact ((member_iff job).mp ((kept_iff job).mp member).1).1
    · intro job member unfinished
      have listed := (member_iff job).mpr
        ⟨member, not_expired_of_unfinished unfinished⟩
      refine (kept_iff job).mpr ⟨listed, fun dropped => ?_⟩
      obtain ⟨entry, old, named⟩ := List.mem_map.mp dropped
      have finished := (entry_iff job listed entry (oldest_mem entry old)
        named).1
      rw [unfinished] at finished
      exact absurd finished Bool.false_ne_true
    · exact reap_bounded many chosen
    · intro job member missing
      by_cases expired : job.expired now = true
      · exact .inl (past_ttl_of_expired expired)
      right
      intro kept keptMember finished
      rw [Bool.not_eq_true] at expired
      have listed := (member_iff job).mpr ⟨member, expired⟩
      obtain ⟨keptListed, spared⟩ := (kept_iff kept).mp keptMember
      have dropped : job.id ∈ oldest.map Prod.fst := by
        by_contra spared
        exact missing ((kept_iff job).mpr ⟨listed, spared⟩)
      obtain ⟨entry, old, named⟩ := List.mem_map.mp dropped
      have order := (entry_iff job listed entry (oldest_mem entry old)
        named).2
      have keptEntry : (kept.id, kept.order) ∈
          finishedOldestFirst (fun _ => false) retained :=
        mem_finishedOldestFirst.mpr ⟨kept, keptListed, rfl, finished, rfl⟩
      rw [← List.take_append_drop (retained.rows.length - maxRetainedWarmJobs)
        (finishedOldestFirst (fun _ => false) retained), chosen] at keptEntry
      rcases List.mem_append.mp keptEntry with inside | later
      · exact absurd (List.mem_map.mpr ⟨_, inside, rfl⟩) spared
      · rw [← chosen] at old
        have ordered := older_of_take old later
        rw [order] at ordered
        apply Nat.lt_of_le_of_ne ordered
        intro sameOrder
        have sameJob := distinct job member kept
          ((member_iff kept).mp keptListed).1 sameOrder
        rw [sameJob] at dropped
        exact spared dropped

/-- Whatever mutexes are held, an entry is dropped whole or kept as it is. -/
theorem mem_of_mem_reap {job : RegisteredJob}
    (member : job ∈ (reap now held jobs).rows) : job ∈ jobs.rows := by
  simp only [reap] at member
  split at member
  · exact (KeyedTable.mem_deleteWhere.mp member).1
  · exact (KeyedTable.mem_deleteWhere.mp
      (KeyedTable.mem_deleteWhere.mp member).1).1

end Reap

/-! ## Every registry of a run -/

namespace JobRegistry

/-- The jobs are named after their orders, the orders of the starts are new,
and exactly the running jobs have no end. -/
structure Sound (registry : JobRegistry) : Prop where
  named : ∀ job ∈ registry.jobs.rows,
    job.id = warmJobId registry.bootId job.order
  ended : ∀ job ∈ registry.jobs.rows,
    job.finishedAt = none ↔ job.state = .running
  startingBelow : ∀ order ∈ registry.starting, order < registry.warmSeq
  jobsBelow : ∀ job ∈ registry.jobs.rows, job.order < registry.warmSeq
  distinct : registry.starting.Nodup
  fresh : ∀ job ∈ registry.jobs.rows, job.order ∉ registry.starting

theorem Sound.of_jobs {registry : JobRegistry} (sound : registry.Sound)
    {jobs : WarmJobs}
    (old : ∀ job ∈ jobs.rows, ∃ before ∈ registry.jobs.rows,
      job.id = before.id ∧ job.order = before.order)
    (ended : ∀ job ∈ jobs.rows, job.finishedAt = none ↔ job.state = .running) :
    Sound { registry with jobs := jobs } := by
  constructor
  · intro job member
    obtain ⟨before, listed, id, order⟩ := old job member
    rw [id, order]
    exact sound.named before listed
  · exact ended
  · exact sound.startingBelow
  · intro job member
    obtain ⟨before, listed, _, order⟩ := old job member
    rw [order]
    exact sound.jobsBelow before listed
  · exact sound.distinct
  · intro job member
    obtain ⟨before, listed, _, order⟩ := old job member
    rw [order]
    exact sound.fresh before listed

theorem Sound.erase {registry : JobRegistry} (sound : registry.Sound)
    (order : Nat) :
    Sound { registry with starting := registry.starting.erase order } := by
  constructor
  · exact sound.named
  · exact sound.ended
  · exact fun other member =>
      sound.startingBelow other (List.mem_of_mem_erase member)
  · exact sound.jobsBelow
  · exact sound.distinct.erase order
  · exact fun job member starting =>
      sound.fresh job member (List.mem_of_mem_erase starting)

theorem Sound.insert {registry : JobRegistry} (sound : registry.Sound)
    {order : Nat} (below : order < registry.warmSeq)
    (taken : order ∉ registry.starting) (regionId : Option String)
    (createdAt : Int) :
    Sound { registry with
      jobs := registry.jobs.insertOrReplace
        (registry.newJob order regionId createdAt) } := by
  have cases : ∀ job, job ∈ (registry.jobs.insertOrReplace
      (registry.newJob order regionId createdAt)).rows →
        job ∈ registry.jobs.rows ∨
          job = registry.newJob order regionId createdAt := by
    intro job member
    exact (KeyedTable.mem_insertOrReplace.mp member).symm.imp And.left id
  constructor
  · intro job member
    rcases cases job member with old | rfl
    · exact sound.named job old
    · rfl
  · intro job member
    rcases cases job member with old | rfl
    · exact sound.ended job old
    · exact ⟨fun _ => rfl, fun _ => rfl⟩
  · exact sound.startingBelow
  · intro job member
    rcases cases job member with old | rfl
    · exact sound.jobsBelow job old
    · exact below
  · exact sound.distinct
  · intro job member
    rcases cases job member with old | rfl
    · exact sound.fresh job old
    · exact taken

theorem step_sound {registry next : JobRegistry} {label : RegistryLabel}
    (sound : registry.Sound) (stepped : registry.step label = some next) :
    next.Sound := by
  cases label with
  | take =>
      cases stepped
      constructor
      · exact sound.named
      · exact sound.ended
      · intro order member
        rcases List.mem_cons.mp member with rfl | later
        · exact Nat.lt_succ_self _
        · exact (sound.startingBelow order later).trans (Nat.lt_succ_self _)
      · exact fun job member =>
          (sound.jobsBelow job member).trans (Nat.lt_succ_self _)
      · exact List.nodup_cons.mpr ⟨fun member =>
          Nat.lt_irrefl _ (sound.startingBelow _ member), sound.distinct⟩
      · intro job member starting
        rcases List.mem_cons.mp starting with same | later
        · exact Nat.ne_of_lt (sound.jobsBelow job member) same
        · exact sound.fresh job member later
  | register order regionId now createdAt listing held counted =>
      simp only [step] at stepped
      split at stepped
      · next enabled =>
        have listed : ∀ job, job ∈ listing.rows ↔ job ∈ registry.jobs.rows :=
          fun _ => (List.isPerm_iff.mp enabled.2).mem_iff
        have reaped : Sound { registry with
            starting := registry.starting.erase order
            jobs := reap now held.contains listing } := by
          apply (sound.erase order).of_jobs
          · intro job member
            exact ⟨job, (listed job).mp (mem_of_mem_reap member), rfl, rfl⟩
          · intro job member
            exact sound.ended job ((listed job).mp (mem_of_mem_reap member))
        split at stepped
        · cases stepped
          exact reaped
        · cases stepped
          exact reaped.insert (sound.startingBelow order enabled.1)
            sound.distinct.not_mem_erase regionId createdAt
      · contradiction
  | drop order =>
      simp only [step] at stepped
      split at stepped
      · cases stepped
        exact sound.erase order
      · contradiction
  | finish id state now =>
      simp only [step] at stepped
      split at stepped
      · next enabled =>
        cases stepped
        apply sound.of_jobs
        · intro job member
          obtain ⟨before, listed, rfl⟩ :=
            (KeyedTable.mem_updateWhere _).mp member
          refine ⟨before, listed, ?_⟩
          split <;> exact ⟨rfl, rfl⟩
        · intro job member
          obtain ⟨before, listed, rfl⟩ :=
            (KeyedTable.mem_updateWhere _).mp member
          split
          · simp [enabled.1]
          · exact sound.ended before listed
      · contradiction
  | cancel id =>
      cases stepped
      apply sound.of_jobs
      · intro job member
        obtain ⟨before, listed, rfl⟩ :=
          (KeyedTable.mem_updateWhere _).mp member
        refine ⟨before, listed, ?_⟩
        split <;> exact ⟨rfl, rfl⟩
      · intro job member
        obtain ⟨before, listed, rfl⟩ :=
          (KeyedTable.mem_updateWhere _).mp member
        split <;> exact sound.ended before listed

theorem sound_of_reachable {registry : JobRegistry}
    (reached : machine.Reachable registry) : registry.Sound := by
  apply reached.invariant
  · rintro start ⟨_, noStarts, noJobs⟩
    constructor
    · intro job member
      rw [noJobs] at member
      exact absurd member List.not_mem_nil
    · intro job member
      rw [noJobs] at member
      exact absurd member List.not_mem_nil
    · intro order member
      rw [noStarts] at member
      exact absurd member List.not_mem_nil
    · intro job member
      rw [noJobs] at member
      exact absurd member List.not_mem_nil
    · rw [noStarts]
      exact List.nodup_nil
    · intro job member
      rw [noJobs] at member
      exact absurd member List.not_mem_nil
  · intro state label next sound stepped
    exact step_sound sound stepped

/-- In every registry of a run, in whatever order its map lists the entries, a
reap which finds no mutex held is sound and keeps the running jobs. -/
theorem reap_sound {registry : JobRegistry}
    (reached : machine.Reachable registry) {listing : WarmJobs}
    (same : listing.rows.Perm registry.jobs.rows) (now : Int) :
    ReapsSoundly now listing (reap now (fun _ => false) listing) ∧
      ∀ job ∈ registry.jobs.rows, job.state = .running →
        job ∈ (reap now (fun _ => false) listing).rows := by
  have sound := sound_of_reachable reached
  have sounds : ReapsSoundly now listing
      (reap now (fun _ => false) listing) := by
    apply reap_sound_of_distinct
    intro left leftMember right rightMember order
    apply listing.eq_of_key_eq leftMember rightMember
    rw [sound.named left (same.mem_iff.mp leftMember),
      sound.named right (same.mem_iff.mp rightMember), order]
  refine ⟨sounds, fun job member running => ?_⟩
  exact sounds.keeps job (same.mem_iff.mpr member)
    ((sound.ended job member).mpr running)

/-- One job has ended two hours ago and one is running. -/
theorem reap_sound_of_two : ∃ (registry : JobRegistry) (listing : WarmJobs),
    listing.rows.Perm registry.jobs.rows ∧ listing.rows.length = 2 ∧
      ReapsSoundly 7300 listing (reap 7300 (fun _ => false) listing) := by
  obtain ⟨registry, run, count⟩ := Option.map_eq_some_iff.mp
    (show (machine.exec ⟨"b", 0, [], .empty⟩
      [.take, .register 0 none 0 0 .empty [] [], .take,
        .finish (warmJobId "b" 0) .done 100,
        .register 1 none 200 200 (.insertOrReplace .empty
          ⟨warmJobId "b" 0, 0, .done, false, some 100, none, 0⟩) [] []]).map
        (fun registry : JobRegistry => registry.jobs.rows.length) = some 2 by
      decide +kernel)
  have reached : machine.Reachable registry :=
    ⟨_, _, ⟨rfl, rfl, rfl⟩, run⟩
  exact ⟨registry, registry.jobs, List.Perm.refl _, count,
    (reap_sound reached (List.Perm.refl _) 7300).1⟩

end JobRegistry

end ChartLocker.Warm
