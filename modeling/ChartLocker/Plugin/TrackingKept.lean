import ChartLocker.Plugin.RegionTracking

/-!
# The tracking of a region is kept

A handler which acts on a finished or a lost job relies on two things which it
has read before an await: that no newer job has come up, and that the saved
status is the one it has seen.  Where they still hold, or where it has nothing
to change, a region which is downloading stays tracked, and the end of an
older job leaves a newer one alone.
-/

namespace ChartLocker.Plugin

open Library

open Regions (SavedRegion RegionPatch DateNow reconcilePatch safeCount field)

/-! ## What handlers rely on -/

/-- A finished job has nothing to change: the record cannot be written, or it
had the result when it was read, and on this answer about the bytes the
observer leaves the maps alone. -/
def completionIsIdle (who : Observer) (snapshot : WarmSnapshot)
    (read : SavedRegion) (response : Option Ecma.Value) (stored : Bool)
    (now : DateNow) : Bool :=
  let status := statusFromSnapshot snapshot
  (!stored && reconcilePatch read status response now ≠ ⟨none, none, none⟩) ||
    (read.status == status && read.lastDownloadedAt.isSome &&
      (safeCount (field response "bytes")).isSome == (who == .poll))

/-- No newer job has come up behind the answer to a lookup by region, or the
answer that there is none finds nothing to write. -/
def Handler.CurrentAnswer (state : RegionRoutes) (stored : Bool) :
    Handler → Prop
  | .told _ none (.snapshot _ _) since => state.newest ≤ since
  | .told who none .gone since =>
      state.newest ≤ since ∨ stored = false ∨
        (who = .poll ∧ state.status ≠ some .downloading)
  | _ => True

/-- No newer job has come up behind the question for the bytes, nor a download
behind the record, or there is nothing to change. -/
def Handler.CurrentBytes (state : RegionRoutes)
    (response : Option Ecma.Value) (stored : Bool) (now : DateNow) :
    Handler → Prop
  | .sizing who _ snapshot read since =>
      (state.newest ≤ since ∧
        (state.status = some .downloading → read.status = .downloading)) ∨
      completionIsIdle who snapshot read response stored now = true
  | _ => True

/-- No newer job has come up behind a redownload. -/
def Handler.CurrentPost (state : RegionRoutes) (whole : Bool) :
    Handler → Prop
  | .posted (some job) =>
      if whole then state.newest ≤ job
      else job ≤ state.newest ∨ state.regionJobs = none
  | _ => True

instance (state : RegionRoutes) (stored : Bool) :
    (handler : Handler) → Decidable (handler.CurrentAnswer state stored)
  | .told _ none (.snapshot _ _) since =>
      inferInstanceAs (Decidable (state.newest ≤ since))
  | .told who none .gone since =>
      inferInstanceAs (Decidable (state.newest ≤ since ∨ stored = false ∨
        (who = .poll ∧ state.status ≠ some .downloading)))
  | .told _ none .unreachable _ | .told _ (some _) _ _ | .sizing _ _ _ _ _
  | .idle | .asking _ _ _ | .posting | .posted _ | .deleting =>
      inferInstanceAs (Decidable True)

instance (state : RegionRoutes) (response : Option Ecma.Value) (stored : Bool)
    (now : DateNow) : (handler : Handler) →
      Decidable (handler.CurrentBytes state response stored now)
  | .sizing who _ snapshot read since =>
      inferInstanceAs (Decidable ((state.newest ≤ since ∧
        (state.status = some .downloading → read.status = .downloading)) ∨
        completionIsIdle who snapshot read response stored now = true))
  | .told _ _ _ _ | .idle | .asking _ _ _ | .posting | .posted _
  | .deleting => inferInstanceAs (Decidable True)

instance (state : RegionRoutes) (whole : Bool) :
    (handler : Handler) → Decidable (handler.CurrentPost state whole)
  | .posted (some job) =>
      inferInstanceAs (Decidable (if whole then state.newest ≤ job
        else job ≤ state.newest ∨ state.regionJobs = none))
  | .posted none | .told _ _ _ _ | .sizing _ _ _ _ _ | .idle
  | .asking _ _ _ | .posting | .deleting => inferInstanceAs (Decidable True)

namespace RegionRoutes

/-- What the step relies on holds at it. -/
def CurrentAt (state : RegionRoutes) : RoutesLabel → Prop
  | .handle call stored => (state.handlers call).CurrentAnswer state stored
  | .size call response stored now =>
      (state.handlers call).CurrentBytes state response stored now
  | .respond call whole _ => (state.handlers call).CurrentPost state whole
  | .postAbandoned => state.regionJobs = none
  | .forget number => ∀ job ∈ state.jobs, number ≤ job.number
  | _ => True

instance (state : RegionRoutes) :
    (label : RoutesLabel) → Decidable (state.CurrentAt label)
  | .handle call stored =>
      inferInstanceAs (Decidable
        ((state.handlers call).CurrentAnswer state stored))
  | .size call response stored now =>
      inferInstanceAs (Decidable
        ((state.handlers call).CurrentBytes state response stored now))
  | .respond call whole _ =>
      inferInstanceAs (Decidable
        ((state.handlers call).CurrentPost state whole))
  | .postAbandoned => inferInstanceAs (Decidable (state.regionJobs = none))
  | .forget number =>
      inferInstanceAs (Decidable (∀ job ∈ state.jobs, number ≤ job.number))
  | .round | .sweep | .poll _ | .answer _ _ | .redownload _ | .post _ _
  | .delete _ | .deleted _ _ _ | .report _ | .restart =>
      inferInstanceAs (Decidable True)

/-- As long as the region is saved. -/
def Timely (state : RegionRoutes) (label : RoutesLabel) : Prop :=
  state.region.isSome → state.CurrentAt label

instance (state : RegionRoutes) (label : RoutesLabel) :
    Decidable (state.Timely label) :=
  inferInstanceAs (Decidable (_ → _))

/-- The job whose end a step acts on.  Where the container knew none of the
region, it is the last which it had accepted. -/
def completion (state : RegionRoutes) : RoutesLabel → Option Nat
  | .handle call _ =>
      match state.handlers call with
      | .told _ none .gone since => some since
      | .told _ (some job) .gone _ => some job
      | .told _ _ (.snapshot job snapshot) _ =>
          if snapshot.state = .running then none else some job
      | _ => none
  | .size call _ _ _ =>
      match state.handlers call with
      | .sizing _ job _ _ _ => some job
      | _ => none
  | _ => none

/-- The completion of an older job leaves the status and the tracking of a
newer one. -/
def SparesNewer (state : RegionRoutes) (label : RoutesLabel)
    (next : RegionRoutes) : Prop :=
  ∀ job ∈ state.completion label, job < state.newest →
    state.region.isSome →
    next.status = state.status ∧ (state.tracked = true → next.tracked = true)

end RegionRoutes

/-! ## The invariant -/

/-- A handler acts on a job which was the newest. -/
def Handler.Sound (accepted : Nat) : Handler → Prop
  | .asking _ (some job) since => since ≤ job
  | .told _ _ (.snapshot job _) since => since ≤ job ∧ job ≤ accepted
  | .sizing _ job _ _ since => since ≤ job
  | .posted (some job) => job ≤ accepted
  | _ => True

theorem Handler.Sound.mono {handler : Handler} {accepted later : Nat}
    (sound : handler.Sound accepted) (grown : accepted ≤ later) :
    handler.Sound later := by
  unfold Handler.Sound at *
  split at sound
  · exact sound
  · exact ⟨sound.1, sound.2.trans grown⟩
  · exact sound
  · exact sound.trans grown
  · trivial

namespace RegionRoutes

structure Sound (state : RegionRoutes) : Prop where
  tracked : state.status = some .downloading → state.tracked = true
  newest : state.newest ≤ state.accepted
  regionJobs : ∀ job ∈ state.regionJobs, state.newest ≤ job
  retained : ∀ job ∈ state.jobs, job.number ≤ state.accepted
  latest : ∀ job ∈ state.jobs.head?, job.number = state.accepted
  handlers : ∀ call, (state.handlers call).Sound state.accepted

theorem Started.sound {state : RegionRoutes} (started : state.Started) :
    state.Sound where
  tracked := started.tracked
  newest := started.newest.le
  regionJobs job member := by
    rcases started.regionJobs with unknown | known
    · rw [unknown] at member
      contradiction
    · rw [known] at member
      cases member
      exact started.newest.le
  retained := started.retained
  latest := started.latest
  handlers call := by
    rw [started.handlers call]
    trivial

namespace Sound

variable {state : RegionRoutes}

theorem toPhase (sound : state.Sound) (call : Nat) {handler : Handler}
    (relied : handler.Sound state.accepted) :
    (state.toPhase call handler).Sound where
  tracked := sound.tracked
  newest := sound.newest
  regionJobs := sound.regionJobs
  retained := sound.retained
  latest := sound.latest
  handlers other := by
    by_cases own : other = call
    · subst own
      simpa only [RegionRoutes.toPhase, Function.update_self] using relied
    · simpa only [RegionRoutes.toPhase, Function.update_of_ne own]
        using sound.handlers other

theorem idle (sound : state.Sound) (call : Nat) :
    (state.toPhase call .idle).Sound :=
  sound.toPhase call trivial

/-- The maps of the routes change. -/
theorem remap (sound : state.Sound) {tracked : Bool} {jobId : Option Nat}
    (tracks : state.status = some .downloading → tracked = true)
    (known : ∀ job ∈ jobId, state.newest ≤ job) :
    { state with tracked := tracked, regionJobs := jobId
      : RegionRoutes }.Sound where
  tracked := tracks
  newest := sound.newest
  regionJobs := known
  retained := sound.retained
  latest := sound.latest
  handlers := sound.handlers

/-- The saved record changes. -/
theorem persist (sound : state.Sound) {patch : RegionPatch}
    (tracks : (state.persistRegionUpdate patch).status =
      some .downloading → state.tracked = true) :
    (state.persistRegionUpdate patch).Sound where
  tracked := tracks
  newest := sound.newest
  regionJobs := sound.regionJobs
  retained := sound.retained
  latest := sound.latest
  handlers := sound.handlers

theorem trackRegionJob (sound : state.Sound) {jobId : Option Nat}
    (known : ∀ job ∈ jobId, state.newest ≤ job) :
    (state.trackRegionJob jobId).Sound := by
  apply sound.remap
  · exact fun _ => rfl
  · cases jobId with
    | none => exact sound.regionJobs
    | some job => exact known

theorem adopt (sound : state.Sound) {job : Nat}
    (current : state.newest ≤ job) (accepted : job ≤ state.accepted) :
    (state.adopt job).Sound where
  tracked := sound.tracked
  newest := max_le sound.newest accepted
  regionJobs _ member := by
    cases member
    exact max_le current le_rfl
  retained := sound.retained
  latest := sound.latest
  handlers := sound.handlers

/-- The newest job of a region grows up to a job which has been accepted,
where no older one is known. -/
theorem raise (sound : state.Sound) {job : Nat}
    (accepted : job ≤ state.accepted)
    (known : ∀ other ∈ state.regionJobs, job ≤ other) :
    { state with newest := max state.newest job : RegionRoutes }.Sound where
  tracked := sound.tracked
  newest := max_le sound.newest accepted
  regionJobs other member :=
    max_le (sound.regionJobs other member) (known other member)
  retained := sound.retained
  latest := sound.latest
  handlers := sound.handlers

end Sound

/-! ## The container -/

section Container

variable {state next : RegionRoutes} {call : Nat}

/-- A lookup by region finds the newest job, if any. -/
theorem Sound.lookupJobByRegion (sound : state.Sound) (who : Observer) :
    (Handler.told who none state.lookupJobByRegion state.accepted).Sound
      state.accepted := by
  unfold RegionRoutes.lookupJobByRegion
  split
  · next job found =>
      have newest := sound.latest job found
      exact ⟨newest.ge, newest.le⟩
  · trivial

theorem Sound.getJobSnapshot (sound : state.Sound) (who : Observer)
    {jobId since : Nat} (current : since ≤ jobId) :
    (Handler.told who (some jobId) (state.getJobSnapshot jobId) since).Sound
      state.accepted := by
  unfold RegionRoutes.getJobSnapshot
  split
  · next job found =>
      have member := List.mem_of_find?_eq_some found
      have same : job.number = jobId := by
        simpa using List.find?_some found
      exact ⟨current, same ▸ sound.retained job member⟩
  · trivial

theorem Sound.answer (sound : state.Sound) {heard : Bool}
    (answered : state.answer call heard = some next) : next.Sound := by
  unfold RegionRoutes.answer at answered
  split at answered
  · next who job since asking =>
      have relied := sound.handlers call
      rw [asking] at relied
      split at answered
      · split at answered
        · cases answered
          exact sound.toPhase call (sound.lookupJobByRegion who)
        · cases answered
          exact sound.toPhase call (sound.getJobSnapshot who relied)
      · cases answered
        exact sound.toPhase call trivial
  · contradiction

theorem Sound.accept (sound : state.Sound)
    (accepted : state.accept = some next) :
    next.Sound ∧ next.accepted = state.accepted + 1 ∧
      next.regionJobs = state.regionJobs ∧ next.region = state.region := by
  unfold RegionRoutes.accept at accepted
  split at accepted
  · contradiction
  · cases accepted
    refine ⟨⟨sound.tracked, ?_, sound.regionJobs, ?_, ?_, ?_⟩, rfl, rfl, rfl⟩
    · exact sound.newest.trans (Nat.le_succ _)
    · intro job member
      rcases List.mem_cons.mp member with rfl | older
      · exact le_rfl
      · exact (sound.retained job older).trans (Nat.le_succ _)
    · intro job member
      cases member
      rfl
    · exact fun call => (sound.handlers call).mono (Nat.le_succ _)

theorem Sound.post (sound : state.Sound) {accepts : Bool}
    (admitted : state.post call accepts = some next) : next.Sound := by
  unfold RegionRoutes.post at admitted
  split at admitted
  · split at admitted
    · obtain ⟨middle, accepted, rfl⟩ := Option.map_eq_some_iff.mp admitted
      apply (sound.accept accepted).1.toPhase
      exact Nat.le_refl middle.accepted
    · cases admitted
      exact sound.toPhase call trivial
  · contradiction

theorem Sound.postAbandoned (sound : state.Sound)
    (unknown : state.regionJobs = none)
    (admitted : state.postAbandoned = some next) : next.Sound := by
  unfold RegionRoutes.postAbandoned at admitted
  split at admitted
  · contradiction
  · obtain ⟨middle, accepted, rfl⟩ := Option.map_eq_some_iff.mp admitted
    obtain ⟨still, _, same, _⟩ := sound.accept accepted
    refine ⟨still.tracked, le_rfl, ?_, still.retained, still.latest,
      still.handlers⟩
    intro job member
    change job ∈ middle.regionJobs at member
    rw [same, unknown] at member
    contradiction

theorem Sound.report (sound : state.Sound) (snapshot : WarmSnapshot) :
    (state.report snapshot).Sound where
  tracked := sound.tracked
  newest := sound.newest
  regionJobs := sound.regionJobs
  retained job member := by
    obtain ⟨old, stored, rfl⟩ := List.mem_map.mp member
    have bounded := sound.retained old stored
    split <;> exact bounded
  latest job member := by
    simp only [RegionRoutes.report, List.head?_map, Option.mem_def,
      Option.map_eq_some_iff] at member
    obtain ⟨old, first, rfl⟩ := member
    have newest := sound.latest old first
    split <;> exact newest
  handlers := sound.handlers

/-- The newest job is the last which is dropped. -/
theorem Sound.forget (sound : state.Sound) {number : Nat}
    (oldest : ∀ job ∈ state.jobs, number ≤ job.number)
    (forgotten : state.forget number = some next) : next.Sound := by
  unfold RegionRoutes.forget at forgotten
  split at forgotten
  · contradiction
  · cases forgotten
    refine ⟨sound.tracked, sound.newest, sound.regionJobs, ?_, ?_,
      sound.handlers⟩
    · exact fun job member =>
        sound.retained job (List.mem_of_mem_filter member)
    · intro job member
      have kept := List.mem_of_mem_head? member
      obtain ⟨stored, apart⟩ := List.mem_filter.mp kept
      cases jobs : state.jobs with
      | nil =>
          rw [jobs] at stored
          contradiction
      | cons first rest =>
          have newest : first.number = state.accepted :=
            sound.latest first (by simp [jobs])
          by_cases dropped : first.number = number
          · have above := oldest job stored
            have below := sound.retained job stored
            have same : job.number = number := by omega
            simp [same] at apart
          · have stays : (state.jobs.filter fun job =>
                job.number != number).head? = some first := by
              simp [jobs, dropped]
            change (state.jobs.filter fun job =>
              job.number != number).head? = some job at member
            obtain rfl := Option.some.inj (stays.symm.trans member)
            exact newest

theorem Sound.restart (sound : state.Sound) :
    { state with jobs := [] : RegionRoutes }.Sound where
  tracked := sound.tracked
  newest := sound.newest
  regionJobs := sound.regionJobs
  retained _ member := by contradiction
  latest _ member := by contradiction
  handlers := sound.handlers

end Container

/-! ## The handlers -/

theorem statusFromSnapshot_ne_downloading (snapshot : WarmSnapshot) :
    statusFromSnapshot snapshot ≠ .downloading := by
  unfold statusFromSnapshot
  split
  · nofun
  · split <;> nofun

section Handlers

variable {state next : RegionRoutes} {call : Nat}

theorem status_persist (patch : RegionPatch) :
    (state.persistRegionUpdate patch).status =
      state.status.map fun status => patch.status.getD status := by
  simp [RegionRoutes.status, persistRegionUpdate, Function.comp_def,
    SavedRegion.apply]

theorem status_persist_of_silent {patch : RegionPatch}
    (silent : patch.status = none) :
    (state.persistRegionUpdate patch).status = state.status := by
  simp [status_persist, silent]

theorem reconcileLostJob_status :
    state.reconcileLostJob.status ≠ some .downloading := by
  unfold RegionRoutes.reconcileLostJob
  split
  · next downloading => simp [status_persist, downloading]
  · next ended => exact ended

/-- A lost job of a region which is not downloading changes nothing. -/
theorem reconcileLostJob_of_ended
    (ended : state.status ≠ some .downloading) :
    state.reconcileLostJob = state :=
  if_neg ended

theorem Sound.reconcileLostJob (sound : state.Sound) :
    state.reconcileLostJob.Sound := by
  by_cases downloading : state.status = some .downloading
  · have written : state.reconcileLostJob =
        state.persistRegionUpdate ⟨some .error, none, none⟩ :=
      if_pos downloading
    rw [written]
    apply sound.persist
    simp [status_persist, downloading]
  · rw [reconcileLostJob_of_ended downloading]
    exact sound

/-- A region which is not downloading needs no tracking. -/
theorem Sound.settle (sound : state.Sound)
    (ended : state.status ≠ some .downloading) (who : Observer) :
    (state.settle who).Sound := by
  cases who with
  | sweep =>
      apply sound.remap
      · exact fun downloading => absurd downloading ended
      · nofun
  | poll => exact sound

theorem Sound.reconcile (sound : state.Sound) {who : Observer} {job : Nat}
    {snapshot : WarmSnapshot} {since : Nat} (current : since ≤ job) :
    (state.reconcile call who job snapshot since).Sound := by
  unfold RegionRoutes.reconcile
  split
  · exact sound.toPhase call current
  · next unsaved =>
      apply Sound.idle
      apply sound.settle
      simp [RegionRoutes.status, unsaved]

theorem Sound.handle (sound : state.Sound) {stored : Bool}
    (current : (state.handlers call).CurrentAnswer state stored)
    (handled : state.handle call stored = some next) : next.Sound := by
  have relied := sound.handlers call
  unfold RegionRoutes.handle at handled
  split at handled
  · cases handled
    exact sound.idle call
  · split at handled
    · cases handled
      apply Sound.idle
      refine sound.reconcileLostJob.remap ?_ sound.reconcileLostJob.regionJobs
      exact fun downloading => absurd downloading reconcileLostJob_status
    · cases handled
      exact sound.idle call
  · cases handled
    apply Sound.idle
    exact sound.remap sound.tracked nofun
  · split at handled
    · cases handled
      exact sound.reconcileLostJob.idle call
    · cases handled
      exact sound.idle call
  · cases handled
    exact sound.toPhase call trivial
  · next asked =>
      rw [asked] at relied
      split at handled
      · cases handled
        exact sound.idle call
      · cases handled
        exact sound.reconcile relied.1
  · next who job snapshot since asked =>
      rw [asked] at relied current
      have adopted := sound.adopt (current.trans relied.1) relied.2
      split at handled
      · cases handled
        cases who with
        | sweep =>
            apply adopted.toPhase
            exact max_le (current.trans relied.1) le_rfl
        | poll => exact adopted.idle call
      · split at handled
        · cases handled
          exact adopted.reconcile relied.1
        · cases handled
          exact adopted.idle call
  · contradiction

/-- A completion which is not behind the saved status ends the download. -/
theorem status_reconcilePatch (snapshot : WarmSnapshot) {read : SavedRegion}
    (response : Option Ecma.Value) (now : DateNow)
    (current : state.status = some .downloading →
      read.status = .downloading) :
    (state.persistRegionUpdate (reconcilePatch read
      (statusFromSnapshot snapshot) response now)).status ≠
        some .downloading := by
  have ended := statusFromSnapshot_ne_downloading snapshot
  rw [status_persist]
  cases saved : state.status with
  | none => nofun
  | some status =>
      simp only [saved, Option.some.injEq] at current
      simp only [Option.map_some, ne_eq, Option.some.injEq, reconcilePatch]
      split
      · exact ended
      · next kept =>
          simp only [not_or, not_not] at kept
          intro downloading
          exact ended (kept.1 ▸ current downloading)

/-- A completion with nothing to change leaves the status and the maps. -/
theorem size_of_idle {who : Observer} {job : Nat} {snapshot : WarmSnapshot}
    {read : SavedRegion} {since : Nat}
    (waiting : state.handlers call = .sizing who job snapshot read since)
    {response : Option Ecma.Value} {stored : Bool} {now : DateNow}
    (idle : completionIsIdle who snapshot read response stored now = true)
    (sized : state.size call response stored now = some next) :
    ∃ patch, next = (state.persistRegionUpdate patch).toPhase call .idle ∧
      patch.status = none := by
  have unwritten : state = state.persistRegionUpdate ⟨none, none, none⟩ := by
    simp [persistRegionUpdate, SavedRegion.apply]
  unfold RegionRoutes.size at sized
  rw [waiting] at sized
  dsimp only at sized
  split at sized
  · cases sized
    exact ⟨_, congrArg (·.toPhase call .idle) unwritten, rfl⟩
  · next written =>
    rcases Bool.or_eq_true _ _ ▸ idle with refused | recorded
    · exact absurd refused written
    · simp only [Bool.and_eq_true, beq_iff_eq, Option.isSome_iff_ne_none]
        at recorded
      obtain ⟨⟨same, known⟩, observer⟩ := recorded
      refine ⟨reconcilePatch read (statusFromSnapshot snapshot) response now,
        ?_, ?_⟩
      · cases authoritative : safeCount (field response "bytes") <;>
          cases who <;> rw [authoritative] at observer sized <;>
          cases observer <;> cases sized <;> rfl
      · simp [reconcilePatch, same, known]

theorem Sound.size (sound : state.Sound) {response : Option Ecma.Value}
    {stored : Bool} {now : DateNow}
    (current : (state.handlers call).CurrentBytes state response stored now)
    (sized : state.size call response stored now = some next) :
    next.Sound := by
  have relied := sound.handlers call
  cases waiting : state.handlers call with
  | sizing who job snapshot read since =>
      rw [waiting] at relied current
      rcases current with ⟨newest, seen⟩ | idle
      · have ended := status_reconcilePatch snapshot response now seen
        have written := sound.persist fun downloading =>
          absurd downloading ended
        simp only [RegionRoutes.size, waiting] at sized
        split at sized
        · cases sized
          exact sound.idle call
        · split at sized
          · cases sized
            exact (written.settle ended _).idle call
          · cases sized
            exact written.idle call
          · cases sized
            apply Sound.idle
            apply written.trackRegionJob
            intro other same
            cases same
            exact newest.trans relied
      · obtain ⟨patch, rfl, silent⟩ := size_of_idle waiting idle sized
        apply Sound.idle
        apply sound.persist
        rw [status_persist_of_silent silent]
        exact sound.tracked
  | _ => simp [RegionRoutes.size, waiting] at sized

theorem Sound.redownloading (sound : state.Sound) {jobId : Option Nat}
    (known : ∀ job ∈ jobId, state.newest ≤ job) (stored : Bool) :
    (state.redownloading jobId stored).Sound := by
  have tracking := sound.trackRegionJob known
  unfold RegionRoutes.redownloading
  cases stored with
  | true => exact tracking.persist fun _ => rfl
  | false => exact tracking

theorem redownloading_regionJobs (jobId : Option Nat) (stored : Bool) :
    (state.redownloading jobId stored).regionJobs =
      jobId.or state.regionJobs := by
  cases stored <;> rfl

theorem redownloading_accepted (jobId : Option Nat) (stored : Bool) :
    (state.redownloading jobId stored).accepted = state.accepted := by
  cases stored <;> rfl

theorem redownloading_newest (jobId : Option Nat) (stored : Bool) :
    (state.redownloading jobId stored).newest = state.newest := by
  cases stored <;> rfl

/-- The answer of a redownload which the container has accepted. -/
theorem Sound.redownloaded (sound : state.Sound) {job : Nat} {whole : Bool}
    (accepted : job ≤ state.accepted)
    (current : if whole then state.newest ≤ job
      else job ≤ state.newest ∨ state.regionJobs = none) (stored : Bool) :
    { state.redownloading (if whole then some job else none) stored with
      newest := max state.newest job : RegionRoutes }.Sound := by
  rw [← redownloading_newest (if whole then some job else none) stored]
  cases whole with
  | true =>
      refine (sound.redownloading ?_ stored).raise ?_ ?_
      · intro other same
        cases same
        exact current
      · rwa [redownloading_accepted]
      · intro other member
        rw [redownloading_regionJobs] at member
        cases member
        exact le_rfl
  | false =>
      have pending : (state.redownloading none stored).Sound :=
        sound.redownloading (by nofun) stored
      refine pending.raise ?_ ?_
      · rwa [redownloading_accepted]
      · intro other member
        rw [redownloading_regionJobs] at member
        rcases current with older | unknown
        · exact older.trans (sound.regionJobs other member)
        · change other ∈ state.regionJobs at member
          rw [unknown] at member
          contradiction

theorem Sound.respond (sound : state.Sound) {whole stored : Bool}
    (current : (state.handlers call).CurrentPost state whole)
    (responded : state.respond call whole stored = some next) :
    next.Sound := by
  have relied := sound.handlers call
  have pending : (state.redownloading none stored).Sound :=
    sound.redownloading (by nofun) stored
  unfold RegionRoutes.respond at responded
  split at responded
  · split at responded
    · contradiction
    · cases responded
      apply Sound.idle
      exact ⟨pending.tracked, pending.newest, pending.regionJobs,
        pending.retained, pending.latest, pending.handlers⟩
  · split at responded
    · cases responded
      exact sound.idle call
    · cases responded
      exact pending.idle call
  · next job answered =>
      rw [answered] at relied current
      cases responded
      exact (sound.redownloaded relied current stored).idle call
  · contradiction

theorem Sound.enter (sound : state.Sound) (handler : Handler)
    (relied : handler.Sound state.accepted)
    (entered : state.enter call handler = some next) : next.Sound := by
  unfold RegionRoutes.enter at entered
  split at entered
  · cases entered
    exact sound.toPhase call relied
  · contradiction

/-- A handler asks for the latest job which it knows, or by region. -/
theorem Sound.asking (sound : state.Sound) (who : Observer) :
    (Handler.asking who state.regionJobs state.newest).Sound
      state.accepted := by
  cases latest : state.regionJobs with
  | none => trivial
  | some job => exact sound.regionJobs job latest

end Handlers

/-! ## Steps and runs -/

section Saved

variable {state next : RegionRoutes} {call : Nat}

/-- A record is at most updated. -/
def RecordFrom (state next : RegionRoutes) : Prop :=
  next.region.isSome → state.region.isSome

theorem recordFrom_persist (patch : RegionPatch) :
    state.RecordFrom (state.persistRegionUpdate patch) := by
  simp [RecordFrom, persistRegionUpdate]

theorem recordFrom_reconcileLostJob :
    state.RecordFrom state.reconcileLostJob := by
  unfold RegionRoutes.reconcileLostJob
  split
  · exact recordFrom_persist _
  · exact id

theorem recordFrom_settle (who : Observer) :
    state.RecordFrom (state.settle who) := by
  cases who <;> exact id

theorem recordFrom_reconcile (state : RegionRoutes) (call : Nat)
    (who : Observer) (job : Nat) (snapshot : WarmSnapshot) (since : Nat) :
    state.RecordFrom (state.reconcile call who job snapshot since) := by
  unfold RegionRoutes.reconcile
  split
  · exact id
  · exact recordFrom_settle who

theorem recordFrom_redownloading (jobId : Option Nat) (stored : Bool) :
    state.RecordFrom (state.redownloading jobId stored) := by
  cases stored with
  | true => exact recordFrom_persist _
  | false => exact id

theorem recordFrom_accept (accepted : state.accept = some next) :
    state.RecordFrom next := by
  unfold RegionRoutes.accept at accepted
  split at accepted
  · contradiction
  · cases accepted
    exact id

theorem recordFrom_handle {stored : Bool}
    (handled : state.handle call stored = some next) :
    state.RecordFrom next := by
  unfold RegionRoutes.handle at handled
  split at handled
  · cases handled
    exact id
  · split at handled <;> cases handled
    · exact recordFrom_reconcileLostJob
    · exact id
  · cases handled
    exact id
  · split at handled <;> cases handled
    · exact recordFrom_reconcileLostJob
    · exact id
  · cases handled
    exact id
  · split at handled <;> cases handled
    · exact id
    · exact recordFrom_reconcile _ _ _ _ _ _
  · split at handled
    · cases handled
      exact id
    · split at handled <;> cases handled
      · exact fun saved => recordFrom_reconcile (state.adopt _) _ _ _ _ _
          saved
      · exact id
  · contradiction

theorem recordFrom_size {response : Option Ecma.Value} {stored : Bool}
    {now : DateNow} (sized : state.size call response stored now = some next) :
    state.RecordFrom next := by
  unfold RegionRoutes.size at sized
  dsimp only at sized
  split at sized
  · split at sized
    · cases sized
      exact id
    · split at sized
      · cases sized
        intro saved
        exact recordFrom_persist _ (recordFrom_settle _ saved)
      · cases sized
        exact recordFrom_persist _
      · cases sized
        exact recordFrom_persist _
  · contradiction

theorem recordFrom_respond {whole stored : Bool}
    (responded : state.respond call whole stored = some next) :
    state.RecordFrom next := by
  unfold RegionRoutes.respond at responded
  split at responded
  · split at responded
    · contradiction
    · cases responded
      exact recordFrom_redownloading none stored
  · split at responded <;> cases responded
    · exact id
    · exact recordFrom_redownloading none stored
  · cases responded
    exact recordFrom_redownloading _ stored
  · contradiction

end Saved

theorem Sound.step {state next : RegionRoutes} {label : RoutesLabel}
    (sound : state.Sound) (saved : next.region.isSome)
    (current : state.CurrentAt label)
    (stepped : state.step label = some next) : next.Sound := by
  cases label with
  | round =>
      simp only [RegionRoutes.step] at stepped
      split at stepped
      · cases stepped
        exact ⟨sound.tracked, sound.newest, sound.regionJobs,
          sound.retained, sound.latest, sound.handlers⟩
      · contradiction
  | sweep =>
      simp only [RegionRoutes.step] at stepped
      split at stepped
      · cases stepped
        have passed : { state with listed := false : RegionRoutes }.Sound :=
          ⟨sound.tracked, sound.newest, sound.regionJobs, sound.retained,
            sound.latest, sound.handlers⟩
        exact passed.toPhase background (sound.asking .sweep)
      · contradiction
  | poll call => exact sound.enter _ (sound.asking .poll) stepped
  | answer call heard => exact sound.answer stepped
  | handle call stored => exact sound.handle current stepped
  | size call response stored now => exact sound.size current stepped
  | redownload call => exact sound.enter .posting trivial stepped
  | post call accepts => exact sound.post stepped
  | respond call whole stored => exact sound.respond current stepped
  | delete call => exact sound.enter .deleting trivial stepped
  | deleted call ok stored =>
      change state.deleted call ok stored = some next at stepped
      unfold deleted at stepped
      split at stepped
      · split at stepped
        · cases stepped
          contradiction
        · cases stepped
          exact sound.idle call
      · contradiction
  | postAbandoned => exact sound.postAbandoned current stepped
  | report snapshot =>
      cases stepped
      exact sound.report snapshot
  | forget number => exact sound.forget current stepped
  | restart =>
      cases stepped
      exact sound.restart

/-- A deleted region does not come back. -/
theorem recordFrom_step {state next : RegionRoutes} {label : RoutesLabel}
    (stepped : state.step label = some next) : state.RecordFrom next := by
  have entered : ∀ {call : Nat} {handler : Handler},
      state.enter call handler = some next → state.RecordFrom next := by
    intro call handler entered
    unfold RegionRoutes.enter at entered
    split at entered
    · cases entered
      exact id
    · contradiction
  cases label with
  | round | sweep =>
      simp only [RegionRoutes.step] at stepped
      split at stepped
      · cases stepped
        exact id
      · contradiction
  | poll call => exact entered stepped
  | answer call heard =>
      change state.answer call heard = some next at stepped
      unfold RegionRoutes.answer at stepped
      split at stepped
      · split at stepped
        · split at stepped <;> cases stepped <;> exact id
        · cases stepped
          exact id
      · contradiction
  | handle call stored => exact recordFrom_handle stepped
  | size call response stored now => exact recordFrom_size stepped
  | redownload call => exact entered stepped
  | post call accepts =>
      change state.post call accepts = some next at stepped
      unfold RegionRoutes.post at stepped
      split at stepped
      · split at stepped
        · obtain ⟨middle, accepted, rfl⟩ := Option.map_eq_some_iff.mp stepped
          exact fun saved => recordFrom_accept accepted saved
        · cases stepped
          exact id
      · contradiction
  | respond call whole stored => exact recordFrom_respond stepped
  | delete call => exact entered stepped
  | deleted call ok stored =>
      change state.deleted call ok stored = some next at stepped
      unfold RegionRoutes.deleted at stepped
      split at stepped
      · split at stepped <;> cases stepped
        · nofun
        · exact id
      · contradiction
  | postAbandoned =>
      change state.postAbandoned = some next at stepped
      unfold RegionRoutes.postAbandoned at stepped
      split at stepped
      · contradiction
      · obtain ⟨middle, accepted, rfl⟩ := Option.map_eq_some_iff.mp stepped
        exact fun saved => recordFrom_accept accepted saved
  | report snapshot =>
      cases stepped
      exact id
  | forget number =>
      change state.forget number = some next at stepped
      unfold RegionRoutes.forget at stepped
      split at stepped
      · contradiction
      · cases stepped
        exact id
  | restart =>
      cases stepped
      exact id

/-! ## Older jobs -/

section Older

variable {state next : RegionRoutes} {call : Nat}

/-- The status and the tracking are as before. -/
def Spared (state next : RegionRoutes) : Prop :=
  next.status = state.status ∧ (state.tracked = true → next.tracked = true)

theorem spared_toPhase (handler : Handler) :
    state.Spared (state.toPhase call handler) :=
  ⟨rfl, id⟩

theorem spared_reconcile (state : RegionRoutes)
    (saved : state.region.isSome) {who : Observer} {job : Nat}
    {snapshot : WarmSnapshot} {since : Nat} :
    state.Spared (state.reconcile call who job snapshot since) := by
  obtain ⟨region, present⟩ := Option.isSome_iff_exists.mp saved
  simp only [RegionRoutes.reconcile, present]
  exact spared_toPhase _

/-- An answer about an older job writes nothing and drops nothing, unless it is
the answer that there is no job. -/
theorem spared_handle {stored : Bool}
    (current : (state.handlers call).CurrentAnswer state stored)
    {job : Nat} (completed : job ∈ state.completion (.handle call stored))
    (older : job < state.newest) (saved : state.region.isSome)
    (handled : state.handle call stored = some next) :
    state.Spared next := by
  cases waiting : state.handlers call with
  | told who asked lookup since =>
      rw [waiting] at current
      simp only [completion, waiting] at completed
      simp only [RegionRoutes.handle, waiting] at handled
      cases lookup with
      | unreachable =>
          cases asked <;> contradiction
      | gone =>
          cases asked with
          | some exact =>
              cases who <;> cases handled <;> exact ⟨rfl, id⟩
          | none =>
              cases completed
              rcases current with newest | failed | ⟨rfl, ended⟩
              · exact absurd newest (Nat.not_le_of_lt older)
              · subst failed
                cases who <;> cases handled <;> exact spared_toPhase _
              · cases stored <;> cases handled
                · exact spared_toPhase _
                · rw [reconcileLostJob_of_ended ended]
                  exact spared_toPhase _
      | snapshot found snapshot =>
          cases asked with
          | some exact =>
              dsimp only at handled
              split at handled <;> cases handled
              · exact spared_toPhase _
              · exact spared_reconcile state saved
          | none =>
              dsimp only at handled
              split at handled
              · cases handled
                exact ⟨rfl, id⟩
              · split at handled <;> cases handled
                · exact spared_reconcile (state.adopt found) saved
                · exact ⟨rfl, id⟩
  | _ => simp [completion, waiting] at completed

theorem Sound.spared_size (sound : state.Sound)
    {response : Option Ecma.Value} {stored : Bool} {now : DateNow}
    (current : (state.handlers call).CurrentBytes state response stored now)
    {job : Nat}
    (completed : job ∈ state.completion (.size call response stored now))
    (older : job < state.newest)
    (sized : state.size call response stored now = some next) :
    state.Spared next := by
  have relied := sound.handlers call
  cases waiting : state.handlers call with
  | sizing who other snapshot read since =>
      rw [waiting] at relied current
      simp only [completion, waiting] at completed
      cases completed
      rcases current with ⟨newest, _⟩ | idle
      · exact absurd (newest.trans relied) (Nat.not_le_of_lt older)
      · obtain ⟨patch, rfl, silent⟩ := size_of_idle waiting idle sized
        exact ⟨status_persist_of_silent silent, id⟩
  | _ => simp [completion, waiting] at completed

/-- The end of a job which is acted on is that of the newest, or changes
nothing. -/
theorem Sound.sparesNewer (sound : state.Sound) {label : RoutesLabel}
    (current : state.CurrentAt label)
    (stepped : state.step label = some next) :
    state.SparesNewer label next := by
  intro job completed older saved
  cases label with
  | handle call stored =>
      exact spared_handle current completed older saved stepped
  | size call response stored now =>
      exact sound.spared_size current completed older stepped
  | _ => contradiction

end Older

theorem sound_step_whileSaved (state : RegionRoutes) (label : RoutesLabel)
    (next : RegionRoutes) (sound : state.region.isSome → state.Sound)
    (current : state.Timely label) (stepped : state.step label = some next)
    (saved : next.region.isSome) : next.Sound :=
  have before := recordFrom_step stepped saved
  (sound before).step saved (current before) stepped

end RegionRoutes

/-- In every run in which no step acts on what is not current, a region which
is downloading is tracked, and the end of an older job touches no newer one. -/
theorem tracking_kept_while_current {start finish : RegionRoutes}
    {labels : List RoutesLabel} (initial : routesMachine.initial start)
    (run : routesMachine.exec start labels = some finish)
    (timely : routesMachine.AllSteps RegionRoutes.Timely start labels) :
    (finish.status = some .downloading → finish.tracked = true) ∧
      routesMachine.AllSteps (fun state label =>
        ∀ next, state.step label = some next →
          state.SparesNewer label next) start labels := by
  have starts : start.region.isSome → start.Sound :=
    fun _ => RegionRoutes.Started.sound initial
  constructor
  · intro downloading
    have saved : finish.region.isSome := by
      cases region : finish.region with
      | none => simp [RegionRoutes.status, region] at downloading
      | some => rfl
    have sound := Machine.exec_preserves_of_allSteps
      RegionRoutes.sound_step_whileSaved run timely starts saved
    exact sound.tracked downloading
  · refine (Machine.allSteps_invariant RegionRoutes.sound_step_whileSaved
      timely starts).mono ?_
    intro state label holds next stepped job completed older saved
    exact (holds.1 saved).sparesNewer (holds.2 saved) stepped job completed
      older saved

def savedHarbour : SavedRegion where
  id := Ecma.utf16 "harbour"
  name := Ecma.utf16 "Harbour"
  bbox := ⟨0, 0, 1, 1⟩
  sourceIds := [Ecma.utf16 "osm"]
  minzoom := 3
  maxzoom := 9
  createdAt := 50
  lastDownloadedAt := some 100
  bytes := 5
  status := .ready

/-- A region which was downloaded before the routes have been started. -/
def downloadedRegion : RegionRoutes where
  region := some savedHarbour
  tracked := false
  regionJobs := none
  listed := false
  handlers := fun _ => .idle
  jobs := []
  accepted := 0
  abandoned := 0
  newest := 0

theorem downloadedRegion_started : downloadedRegion.Started where
  tracked := by decide
  regionJobs := .inl rfl
  handlers _ := rfl
  retained _ member := by contradiction
  latest _ member := by contradiction
  abandoned := rfl
  newest := rfl

def redownload : List RoutesLabel :=
  [.redownload 1, .post 1 true, .respond 1 true true]

def sampleNow : DateNow := ⟨200000, by decide⟩

/-- A sweep up to the question for the bytes. -/
def sweepUp : List RoutesLabel :=
  [.round, .sweep, .answer background true, .handle background true]

/-- A poll finds no job, and goes on only when the first redownload is over.
The second one is answered while the sweep asks for the bytes of the first,
which it is not told. -/
def reconciledBetween : List RoutesLabel :=
  [.poll 2, .answer 2 true] ++ redownload ++ [.report ⟨.done, 0⟩] ++
    sweepUp ++ [.size background none true sampleNow, .handle 2 true] ++
    sweepUp ++ redownload

theorem tracking_kept_while_current_reconciledBetween :
    ∃ before finish,
      routesMachine.exec downloadedRegion reconciledBetween = some before ∧
      before.completion (.size background none true sampleNow) = some 1 ∧
      before.newest = 2 ∧
      routesMachine.exec downloadedRegion
        (reconciledBetween ++ [.size background none true sampleNow]) =
          some finish ∧
      finish.status = some .downloading ∧ finish.tracked = true := by
  have reached : (routesMachine.exec downloadedRegion reconciledBetween).map
      (fun before => (before.completion (.size background none true sampleNow),
        before.newest)) = some (some 1, 2) := by decide +kernel
  have ended : (routesMachine.exec downloadedRegion
      (reconciledBetween ++ [.size background none true sampleNow])).map
      RegionRoutes.status = some (some .downloading) := by decide +kernel
  have timely : routesMachine.AllSteps RegionRoutes.Timely downloadedRegion
      (reconciledBetween ++ [.size background none true sampleNow]) := by
    decide +kernel
  obtain ⟨before, first, same⟩ := Option.map_eq_some_iff.mp reached
  obtain ⟨finish, run, downloading⟩ := Option.map_eq_some_iff.mp ended
  obtain ⟨older, newest⟩ := Prod.mk.inj same
  have kept := tracking_kept_while_current downloadedRegion_started run timely
  exact ⟨before, finish, first, older, newest, run, downloading,
    kept.1 downloading⟩

/-- The bytes of the first download are not authoritative at first.  While the
next sweep asks for them again, the second redownload is answered. -/
def answeredMeanwhile : List RoutesLabel :=
  redownload ++ [.report ⟨.done, 0⟩] ++ sweepUp ++
    [.size background none true sampleNow] ++ sweepUp ++ redownload ++
    [.size background (some (.object [("bytes", .ofRat 9)])) true sampleNow]

/-- The container has lost the first job.  The second redownload is answered
while the sweep is told so. -/
def lostMeanwhile : List RoutesLabel :=
  redownload ++ [.restart] ++ sweepUp ++
    [.round, .sweep, .answer background true] ++ redownload ++
    [.handle background true]

/-- The second job runs, and nothing tracks its region; where the first job
was lost, its end is written over the download. -/
theorem answeredMeanwhile_untracks :
    (∃ finish, routesMachine.exec downloadedRegion answeredMeanwhile =
        some finish ∧
      finish.status = some .downloading ∧
      finish.jobs.head? = some ⟨2, ⟨.running, 0⟩⟩ ∧
      finish.tracked = false ∧ finish.regionJobs = none) ∧
    ∃ finish, routesMachine.exec downloadedRegion lostMeanwhile =
        some finish ∧
      finish.status = some .error ∧
      finish.jobs.head? = some ⟨2, ⟨.running, 0⟩⟩ ∧
      finish.tracked = false ∧ finish.regionJobs = some 2 := by
  have reached : (routesMachine.exec downloadedRegion answeredMeanwhile).map
      (fun finish => (finish.status, finish.jobs.head?, finish.tracked,
        finish.regionJobs)) =
      some (some .downloading, some ⟨2, ⟨.running, 0⟩⟩, false, none) := by
    decide +kernel
  have lost : (routesMachine.exec downloadedRegion lostMeanwhile).map
      (fun finish => (finish.status, finish.jobs.head?, finish.tracked,
        finish.regionJobs)) =
      some (some .error, some ⟨2, ⟨.running, 0⟩⟩, false, some 2) := by
    decide +kernel
  obtain ⟨finish, run, same⟩ := Option.map_eq_some_iff.mp reached
  obtain ⟨other, lostRun, also⟩ := Option.map_eq_some_iff.mp lost
  simp only [Prod.mk.injEq] at same also
  exact ⟨⟨finish, run, same⟩, other, lostRun, also⟩

end ChartLocker.Plugin
