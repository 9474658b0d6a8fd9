import ChartLocker.Library.Machine
import Mathlib.Algebra.Order.Ring.Rat
import Mathlib.Tactic.Linarith

/-!
# The cached loader of the regions store

`createCachedRegionsLoader` reads the file of the store when it is marked
dirty by a watch event, or when a throttled `stat` finds another identity.  A
call is one turn of the event loop, so that watch events come between calls,
but other processes write the file at any moment, also between the `stat` and
the read of one call.

The content of a file is the store which it is read as.  Every write gives the
file a new identity, its version.  A load which normalizes or migrates the
file, or moves a corrupt one aside, writes the store which it returns.
-/

namespace ChartLocker.Plugin

open Library

variable {Content : Type}

/-- Where a call of `getStore` waits. -/
inductive LoaderPhase where
  | idle
  /-- In front of its `stat`, which a dirty call makes for its load only. -/
  | stating (dirty : Bool)
  /-- In front of its load, with the identity which it has seen. -/
  | loading (identity : Nat)
deriving DecidableEq, Repr

/-- How `loadRegionsStore` ends.  A load may throw after its write. -/
inductive LoadOutcome (Content : Type) where
  | reads
  | rewrites (content : Content)
  | throws (written : Option Content)
deriving DecidableEq, Repr

/-- A call which has returned: when and what, the content of the file then,
and whether a watch event for the latest write came before the call. -/
structure LoaderAnswer (Content : Type) where
  time : Rat
  content : Content
  current : Content
  announced : Bool
deriving DecidableEq, Repr

structure RegionsLoader (Content : Type) where
  now : Rat
  content : Content
  version : Nat
  /-- The contents which have been replaced, and when. -/
  replaced : List (Content × Rat)
  /-- The latest write for which a watch event was delivered. -/
  notified : Nat
  cached : Option Content
  /-- `none` before the first load. -/
  cachedIdentity : Option Nat
  dirty : Bool
  /-- `none` stands for the negative infinity. -/
  lastStatMs : Option Rat
  phase : LoaderPhase
  /-- The clock reading of the current call, and the latest write for which a
  watch event was delivered before it. -/
  calledAt : Rat
  notifiedBefore : Nat
  answers : List (LoaderAnswer Content)

inductive LoaderLabel (Content : Type) where
  | advance (time : Rat)
  | write (content : Content)
  /-- A watch event for a write. -/
  | event (version : Nat)
  | getStore
  | stat
  | load (outcome : LoadOutcome Content)

namespace RegionsLoader

def replaceFile (loader : RegionsLoader Content) (content : Content) :
    RegionsLoader Content :=
  { loader with
    content := content
    version := loader.version + 1
    replaced := (loader.content, loader.now) :: loader.replaced }

def answer (loader : RegionsLoader Content) (content : Content) :
    RegionsLoader Content :=
  { loader with
    phase := .idle
    answers := ⟨loader.calledAt, content, loader.content,
      decide (loader.notifiedBefore = loader.version)⟩ :: loader.answers }

/-- `reload`, after `loadRegionsStore`. -/
def keep (loader : RegionsLoader Content) (identity : Nat)
    (content : Content) : RegionsLoader Content :=
  { loader with
    cached := some content
    cachedIdentity := some identity
    dirty := false }

def getStore (selfHealMs : Rat) (loader : RegionsLoader Content) :
    RegionsLoader Content :=
  let called := { loader with
    calledAt := loader.now
    notifiedBefore := loader.notified }
  match loader.cached with
  | none => { called with
      lastStatMs := some loader.now
      phase := .stating true }
  | some content =>
      if loader.dirty then
        { called with
          lastStatMs := some loader.now
          phase := .stating true }
      else if loader.lastStatMs.all fun last =>
          decide (loader.now - last ≥ selfHealMs) then
        { called with
          lastStatMs := some loader.now
          phase := .stating false }
      else
        called.answer content

def stat (loader : RegionsLoader Content) : Option (RegionsLoader Content) :=
  match loader.phase, loader.cached with
  | .stating true, _ => some { loader with phase := .loading loader.version }
  | .stating false, some content =>
      if loader.cachedIdentity ≠ some loader.version then
        some { loader with phase := .loading loader.version }
      else
        some (loader.answer content)
  | _, _ => none

def load (loader : RegionsLoader Content) (outcome : LoadOutcome Content) :
    Option (RegionsLoader Content) :=
  match loader.phase, outcome with
  | .loading identity, .reads =>
      some ((loader.keep identity loader.content).answer loader.content)
  | .loading identity, .rewrites content =>
      some (((loader.replaceFile content).keep identity content).answer content)
  | .loading _, .throws none => some { loader with phase := .idle }
  | .loading _, .throws (some content) =>
      some { loader.replaceFile content with phase := .idle }
  | _, _ => none

def step (selfHealMs : Rat) (loader : RegionsLoader Content) :
    LoaderLabel Content → Option (RegionsLoader Content)
  | .advance time =>
      if loader.now ≤ time then some { loader with now := time } else none
  | .write content => some (loader.replaceFile content)
  | .event version =>
      if loader.phase = .idle ∧ 0 < version ∧ version ≤ loader.version then
        some { loader with
          dirty := true
          notified := max loader.notified version }
      else
        none
  | .getStore =>
      if loader.phase = .idle then some (loader.getStore selfHealMs) else none
  | .stat => loader.stat
  | .load outcome => loader.load outcome

/-- A new loader of a file. -/
def create (now : Rat) (content : Content) : RegionsLoader Content where
  now := now
  content := content
  version := 0
  replaced := []
  notified := 0
  cached := none
  cachedIdentity := none
  dirty := true
  lastStatMs := none
  phase := .idle
  calledAt := now
  notifiedBefore := 0
  answers := []

def machine (Content : Type) (selfHealMs : Rat) :
    Machine (RegionsLoader Content) (LoaderLabel Content) where
  initial loader := ∃ now content, loader = create now content
  step := step selfHealMs

/-! ## Bounded staleness -/

/-- The file held a content at some moment not before a time. -/
def HeldSince (loader : RegionsLoader Content) (time : Rat)
    (content : Content) : Prop :=
  content = loader.content ∨
    ∃ replacedAt, (content, replacedAt) ∈ loader.replaced ∧ time ≤ replacedAt

/-- Every answer is of bounded age, and the newest content if the watch event
for the latest write came before the call. -/
def Fresh (selfHealMs : Rat) (loader : RegionsLoader Content) : Prop :=
  ∀ answer ∈ loader.answers,
    loader.HeldSince (answer.time - selfHealMs) answer.content ∧
      (answer.announced = true → answer.content = answer.current)

/-- A load throws only behind a watch event, or as the first one. -/
def HealsSafely (loader : RegionsLoader Content) :
    LoaderLabel Content → Prop
  | .load (.throws _) => loader.dirty = true ∨ loader.cached.isNone = true
  | _ => True

instance (loader : RegionsLoader Content) :
    ∀ label, Decidable (loader.HealsSafely label)
  | .load (.throws _) =>
      inferInstanceAs (Decidable (_ ∨ _))
  | .load .reads | .load (.rewrites _) | .advance _ | .write _ | .event _
  | .getStore | .stat => .isTrue trivial

/-! ## The invariant -/

/-- What every step keeps, in the middle of a call too. -/
structure Core (selfHealMs : Rat) (loader : RegionsLoader Content) :
    Prop where
  fresh : loader.Fresh selfHealMs
  answered : ∀ answer ∈ loader.answers, answer.time ≤ loader.now
  called : loader.calledAt ≤ loader.now
  stated : ∀ last, loader.lastStatMs = some last → last ≤ loader.now
  notifies : loader.notified ≤ loader.version
  identified : ∀ identity, loader.cachedIdentity = some identity →
    identity ≤ loader.version ∧
      (identity = loader.version → loader.cached = some loader.content)
  announced : loader.dirty = false → ∀ content,
    loader.cached = some content → loader.notified = loader.version →
      content = loader.content

/-- A call has stored its clock reading. -/
structure Calls (loader : RegionsLoader Content) : Prop where
  stated : loader.lastStatMs = some loader.calledAt
  notified : loader.notifiedBefore = loader.notified

/-- Between calls, the content in the cache was held at the last `stat`, if it
is not marked dirty. -/
def Between (loader : RegionsLoader Content) : Prop :=
  loader.dirty = false → ∀ content, loader.cached = some content →
    ∃ last, loader.lastStatMs = some last ∧ loader.HeldSince last content

def InPhase (loader : RegionsLoader Content) : Prop :=
  match loader.phase with
  | .idle => loader.Between
  | .stating _ => loader.Calls
  | .loading identity => loader.Calls ∧ identity ≤ loader.version

structure Sound (selfHealMs : Rat) (loader : RegionsLoader Content) :
    Prop where
  core : loader.Core selfHealMs
  inPhase : loader.InPhase

section Steps

variable {selfHealMs : Rat} {loader next : RegionsLoader Content}
  {content : Content} {time earlier : Rat}

theorem HeldSince.mono (held : loader.HeldSince time content)
    (before : earlier ≤ time) : loader.HeldSince earlier content := by
  rcases held with current | ⟨replacedAt, member, later⟩
  · exact .inl current
  · exact .inr ⟨replacedAt, member, before.trans later⟩

/-- A content which a write replaces has been held until then. -/
theorem HeldSince.replace (held : loader.HeldSince time content)
    (past : time ≤ loader.now) (written : Content) :
    (loader.replaceFile written).HeldSince time content := by
  rcases held with rfl | ⟨replacedAt, member, later⟩
  · exact .inr ⟨loader.now, List.mem_cons_self, past⟩
  · exact .inr ⟨replacedAt, List.mem_cons_of_mem _ member, later⟩

theorem Core.replace (interval : 0 ≤ selfHealMs)
    (core : loader.Core selfHealMs) (written : Content) :
    (loader.replaceFile written).Core selfHealMs := by
  constructor
  · intro answer member
    obtain ⟨held, announced⟩ := core.fresh answer member
    refine ⟨held.replace ?_ written, announced⟩
    have past := core.answered answer member
    linarith
  · exact core.answered
  · exact core.called
  · exact core.stated
  · exact Nat.le_succ_of_le core.notifies
  · intro identity same
    obtain ⟨seen, _⟩ := core.identified identity same
    refine ⟨Nat.le_succ_of_le seen, fun latest => ?_⟩
    exact absurd latest (Nat.ne_of_lt (Nat.lt_succ_of_le seen))
  · intro _ _ _ latest
    exact absurd latest (Nat.ne_of_lt (Nat.lt_succ_of_le core.notifies))

theorem Core.keep (core : loader.Core selfHealMs) {identity : Nat}
    (seen : identity ≤ loader.version) :
    (loader.keep identity loader.content).Core selfHealMs := by
  constructor
  · exact core.fresh
  · exact core.answered
  · exact core.called
  · exact core.stated
  · exact core.notifies
  · intro other same
    cases same
    exact ⟨seen, fun _ => rfl⟩
  · intro _ other same _
    exact (Option.some.inj same).symm

/-- A call answers what is in its cache. -/
theorem Core.answer (core : loader.Core selfHealMs)
    (held : loader.HeldSince (loader.calledAt - selfHealMs) content)
    (announced : loader.notifiedBefore = loader.version →
      content = loader.content)
    (between : loader.Between) : (loader.answer content).Sound selfHealMs := by
  refine ⟨?_, between⟩
  constructor
  · intro answer member
    rcases List.mem_cons.mp member with rfl | old
    · exact ⟨held, fun told => announced (of_decide_eq_true told)⟩
    · exact core.fresh answer old
  · intro answer member
    rcases List.mem_cons.mp member with rfl | old
    · exact core.called
    · exact core.answered answer old
  · exact core.called
  · exact core.stated
  · exact core.notifies
  · exact core.identified
  · exact core.announced

/-- A load answers the content which the file holds behind it. -/
theorem Core.answer_load (core : loader.Core selfHealMs) {identity : Nat}
    (seen : identity ≤ loader.version)
    (stated : loader.lastStatMs = some loader.calledAt) :
    ((loader.keep identity loader.content).answer loader.content).Sound
      selfHealMs := by
  apply (core.keep seen).answer
  · exact .inl rfl
  · exact fun _ => rfl
  · intro _ other same
    cases same
    exact ⟨_, stated, .inl rfl⟩

theorem Sound.getStore (sound : loader.Sound selfHealMs)
    (idle : loader.phase = .idle) :
    (loader.getStore selfHealMs).Sound selfHealMs := by
  obtain ⟨core, inPhase⟩ := sound
  have between : loader.Between := by
    rw [InPhase, idle] at inPhase
    exact inPhase
  have stating : ∀ dirty, Sound selfHealMs { loader with
      calledAt := loader.now
      notifiedBefore := loader.notified
      lastStatMs := some loader.now
      phase := .stating dirty } := by
    intro dirty
    refine ⟨?_, ⟨rfl, rfl⟩⟩
    constructor
    · exact core.fresh
    · exact core.answered
    · exact le_refl _
    · intro last same
      cases same
      exact le_refl _
    · exact core.notifies
    · exact core.identified
    · exact core.announced
  unfold RegionsLoader.getStore
  split
  · exact stating true
  · next content cached =>
    split
    · exact stating true
    · next clean =>
      rw [Bool.not_eq_true] at clean
      split
      · exact stating false
      · next recent =>
        obtain ⟨last, stated, held⟩ := between clean content cached
        have called : Core selfHealMs { loader with
            calledAt := loader.now
            notifiedBefore := loader.notified } :=
          ⟨core.fresh, core.answered, le_refl _, core.stated, core.notifies,
            core.identified, core.announced⟩
        apply called.answer
        · rw [stated, Option.all_some, decide_eq_true_eq, not_le] at recent
          have kept : loader.HeldSince (loader.now - selfHealMs) content :=
            held.mono (by linarith)
          exact kept
        · exact core.announced clean content cached
        · exact between

theorem Sound.stat (sound : loader.Sound selfHealMs)
    (stepped : loader.stat = some next) : next.Sound selfHealMs := by
  obtain ⟨core, inPhase⟩ := sound
  have loading : loader.Calls → Sound selfHealMs { loader with
      phase := .loading loader.version } := by
    intro calls
    exact ⟨⟨core.fresh, core.answered, core.called, core.stated, core.notifies,
      core.identified, core.announced⟩, ⟨calls.stated, calls.notified⟩,
      Nat.le_refl _⟩
  unfold RegionsLoader.stat at stepped
  split at stepped
  · next _ phase =>
    cases stepped
    rw [InPhase, phase] at inPhase
    exact loading inPhase
  · next content phase cached =>
    rw [InPhase, phase] at inPhase
    split at stepped
    · cases stepped
      exact loading inPhase
    · next same =>
      cases stepped
      rw [not_not] at same
      have current : content = loader.content := by
        have kept := (core.identified _ same).2 rfl
        rw [cached] at kept
        exact Option.some.inj kept
      apply core.answer
      · exact .inl current
      · exact fun _ => current
      · intro _ other found
        rw [cached] at found
        cases found
        exact ⟨_, inPhase.stated, .inl current⟩
  · contradiction

theorem Sound.load (sound : loader.Sound selfHealMs)
    (interval : 0 ≤ selfHealMs) {outcome : LoadOutcome Content}
    (safe : loader.HealsSafely (.load outcome))
    (stepped : loader.load outcome = some next) : next.Sound selfHealMs := by
  obtain ⟨core, inPhase⟩ := sound
  unfold RegionsLoader.load at stepped
  split at stepped
  · next identity phase =>
    cases stepped
    rw [InPhase, phase] at inPhase
    exact core.answer_load inPhase.2 inPhase.1.stated
  · next identity written phase =>
    cases stepped
    rw [InPhase, phase] at inPhase
    exact (core.replace interval written).answer_load
      (Nat.le_succ_of_le inPhase.2) inPhase.1.stated
  · next phase =>
    cases stepped
    refine ⟨⟨core.fresh, core.answered, core.called, core.stated,
      core.notifies, core.identified, core.announced⟩, ?_⟩
    intro clean content cached
    rcases safe with dirty | missing
    · have clean : loader.dirty = false := clean
      rw [dirty] at clean
      cases clean
    · have cached : loader.cached = some content := cached
      rw [cached] at missing
      cases missing
  · next written phase =>
    cases stepped
    have replaced := core.replace interval written
    refine ⟨⟨replaced.fresh, replaced.answered, replaced.called,
      replaced.stated, replaced.notifies, replaced.identified,
      replaced.announced⟩, ?_⟩
    intro clean content cached
    rcases safe with dirty | missing
    · have clean : loader.dirty = false := clean
      rw [dirty] at clean
      cases clean
    · have cached : loader.cached = some content := cached
      rw [cached] at missing
      cases missing
  · contradiction

theorem Sound.replace (interval : 0 ≤ selfHealMs)
    (sound : loader.Sound selfHealMs) (written : Content) :
    (loader.replaceFile written).Sound selfHealMs := by
  obtain ⟨core, inPhase⟩ := sound
  refine ⟨core.replace interval written, ?_⟩
  cases phase : loader.phase with
  | idle =>
      rw [InPhase, phase] at inPhase
      rw [InPhase, replaceFile, phase]
      intro clean content cached
      obtain ⟨last, stated, held⟩ := inPhase clean content cached
      exact ⟨last, stated, held.replace (core.stated last stated) written⟩
  | stating dirty =>
      rw [InPhase, phase] at inPhase
      rw [InPhase, replaceFile, phase]
      exact ⟨inPhase.stated, inPhase.notified⟩
  | loading identity =>
      rw [InPhase, phase] at inPhase
      rw [InPhase, replaceFile, phase]
      exact ⟨⟨inPhase.1.stated, inPhase.1.notified⟩,
        Nat.le_succ_of_le inPhase.2⟩

theorem Sound.advance (sound : loader.Sound selfHealMs)
    (later : loader.now ≤ time) :
    Sound selfHealMs { loader with now := time } := by
  obtain ⟨core, inPhase⟩ := sound
  refine ⟨⟨core.fresh, ?_, core.called.trans later, ?_, core.notifies,
    core.identified, core.announced⟩, ?_⟩
  · exact fun answer member => (core.answered answer member).trans later
  · exact fun last stated => (core.stated last stated).trans later
  · cases phase : loader.phase with
    | idle =>
        rw [InPhase, phase] at inPhase
        rw [InPhase]
        exact inPhase
    | stating dirty =>
        rw [InPhase, phase] at inPhase
        rw [InPhase]
        exact ⟨inPhase.stated, inPhase.notified⟩
    | loading identity =>
        rw [InPhase, phase] at inPhase
        rw [InPhase]
        exact ⟨⟨inPhase.1.stated, inPhase.1.notified⟩, inPhase.2⟩

theorem step_sound (interval : 0 ≤ selfHealMs) {label : LoaderLabel Content}
    (sound : loader.Sound selfHealMs) (safe : loader.HealsSafely label)
    (stepped : loader.step selfHealMs label = some next) :
    next.Sound selfHealMs := by
  cases label with
  | advance time =>
      simp only [step] at stepped
      split at stepped
      · next later =>
        cases stepped
        exact sound.advance later
      · contradiction
  | write content =>
      cases stepped
      exact sound.replace interval content
  | event version =>
      simp only [step] at stepped
      split at stepped
      · next enabled =>
        cases stepped
        obtain ⟨core, _⟩ := sound
        refine ⟨⟨core.fresh, core.answered, core.called, core.stated,
          Nat.max_le.mpr ⟨core.notifies, enabled.2.2⟩, core.identified, ?_⟩, ?_⟩
        · intro clean
          cases clean
        · rw [InPhase, enabled.1]
          intro clean
          cases clean
      · contradiction
  | getStore =>
      simp only [step] at stepped
      split at stepped
      · next idle =>
        cases stepped
        exact sound.getStore idle
      · contradiction
  | stat => exact sound.stat stepped
  | load outcome => exact sound.load interval safe stepped

theorem create_sound (now : Rat) (content : Content) :
    (create now content).Sound selfHealMs := by
  refine ⟨⟨?_, ?_, le_refl _, ?_, Nat.le_refl _, ?_, ?_⟩, ?_⟩
  · intro answer member
    exact absurd member List.not_mem_nil
  · intro answer member
    exact absurd member List.not_mem_nil
  · intro last stated
    cases stated
  · intro identity same
    cases same
  · intro clean
    cases clean
  · intro clean
    cases clean

end Steps

/-- In every run in which no self-healing load throws, every answer is fresh. -/
theorem answers_fresh {selfHealMs : Rat} (interval : 0 ≤ selfHealMs)
    {start finish : RegionsLoader Content}
    {labels : List (LoaderLabel Content)}
    (initial : (machine Content selfHealMs).initial start)
    (run : (machine Content selfHealMs).exec start labels = some finish)
    (safe : (machine Content selfHealMs).AllSteps HealsSafely start labels) :
    finish.Fresh selfHealMs := by
  obtain ⟨now, content, rfl⟩ := initial
  exact (Machine.exec_preserves_of_allSteps (motive := Sound selfHealMs)
    (fun _ _ _ sound met stepped => step_sound interval sound met stepped)
    run safe (create_sound now content)).core.fresh

/-- A write, of which the first load of the interval behind it throws. -/
def staleRun : List (LoaderLabel Bool) :=
  [.getStore, .stat, .load .reads, .advance 1, .write true, .advance 5000,
    .getStore, .stat, .load (.throws none), .advance 9999, .getStore]

/-- The answer at 9999 ms is a content which was replaced at 1 ms. -/
theorem stale_behind_failed_load :
    ∃ finish, (machine Bool 5000).exec (create 0 false) staleRun =
      some finish ∧ ¬finish.Fresh 5000 := by
  obtain ⟨finish, run, read⟩ := Option.map_eq_some_iff.mp
    (show ((machine Bool 5000).exec (create 0 false) staleRun).map
      (fun finish : RegionsLoader Bool => (finish.answers.head?,
        finish.content, finish.replaced)) =
        some (some ⟨9999, false, true, false⟩, true, [(false, 1)]) by
      decide +kernel)
  simp only [Prod.mk.injEq] at read
  obtain ⟨answered, content, replaced⟩ := read
  refine ⟨finish, run, fun fresh => ?_⟩
  obtain ⟨rest, answers⟩ := List.head?_eq_some_iff.mp answered
  have held := (fresh ⟨9999, false, true, false⟩
    (answers ▸ List.mem_cons_self)).1
  rcases held with current | ⟨replacedAt, member, later⟩
  · rw [content] at current
    cases current
  · rw [replaced, List.mem_singleton] at member
    cases member
    norm_num at later

/-- A write whose watch event comes, and one which the next `stat` finds. -/
theorem answers_fresh_of_two_writes :
    ∃ finish, (machine Bool 5000).exec (create 0 false)
      [.getStore, .stat, .load .reads, .advance 1, .write true, .event 1,
        .getStore, .stat, .load (.throws none), .getStore, .stat, .write false,
        .load .reads, .advance 6000, .getStore, .stat, .load .reads] =
        some finish ∧ finish.Fresh 5000 := by
  obtain ⟨finish, run, _⟩ := Option.map_eq_some_iff.mp
    (show ((machine Bool 5000).exec (create 0 false)
      [.getStore, .stat, .load .reads, .advance 1, .write true, .event 1,
        .getStore, .stat, .load (.throws none), .getStore, .stat, .write false,
        .load .reads, .advance 6000, .getStore, .stat, .load .reads]).map
      (fun finish : RegionsLoader Bool => finish.answers.length) = some 3 by
      decide +kernel)
  exact ⟨finish, run, answers_fresh (by norm_num) ⟨0, false, rfl⟩ run
    (by decide +kernel)⟩

end RegionsLoader

end ChartLocker.Plugin
