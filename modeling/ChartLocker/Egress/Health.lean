import Mathlib.Algebra.Order.Group.Nat
import Mathlib.Data.List.Basic
import Mathlib.Logic.Function.Basic

/-!
# Upstream health

The timeout of a source escalates with its timeouts.  The map keeps a capped
streak for each source; what it stands for is the list of the source's
timeouts since it last recovered.
-/

namespace ChartLocker.Egress

def maxTimeoutMs : Nat := 90000

def streakCap : Nat := 2

def recoverySecs : Int := 300

structure SourceHealth where
  streak : Nat
  lastTimeoutAt : Int
deriving DecidableEq, Repr

abbrev UpstreamHealth := String → Option SourceHealth

namespace UpstreamHealth

variable (baseMs : Nat) (health : UpstreamHealth)

/-- The shift is one of 64 bits. -/
def schedule (streak : Nat) : Nat :=
  min (baseMs * 2 ^ streak % 2 ^ 64) maxTimeoutMs

def timeoutMs (id : String) : Nat :=
  schedule baseMs ((health id).elim 0 SourceHealth.streak)

def recordTimeout (id : String) (now : Int) : UpstreamHealth :=
  Function.update health id (some
    ⟨min ((health id).elim 0 SourceHealth.streak + 1) streakCap, now⟩)

def recordSuccess (id : String) (now : Int) : UpstreamHealth :=
  match health id with
  | some entry =>
      if recoverySecs ≤ now - entry.lastTimeoutAt then
        Function.update health id none
      else
        health
  | none => health

def isSlow (id : String) : Bool :=
  (health id).any fun entry => decide (0 < entry.streak)

end UpstreamHealth

/-! ## What the map stands for -/

inductive HealthEvent where
  | timeout (source : String) (now : Int)
  | success (source : String) (now : Int)
deriving DecidableEq, Repr

namespace HealthEvent

def source : HealthEvent → String
  | timeout source _ => source
  | success source _ => source

/-- The instants of the timeouts of a source since it has last recovered,
newest first, like the events. -/
def escalation (id : String) : List HealthEvent → List Int
  | [] => []
  | timeout source now :: earlier =>
      if source = id then
        now :: escalation id earlier
      else
        escalation id earlier
  | success source now :: earlier =>
      if source = id ∧ ∃ last ∈ (escalation id earlier).head?,
          recoverySecs ≤ now - last then
        []
      else
        escalation id earlier

/-- The entry of a source with these timeouts. -/
def entry : List Int → Option SourceHealth
  | [] => none
  | last :: earlier => some ⟨min (earlier.length + 1) streakCap, last⟩

/-- Perform an event. -/
def record (health : UpstreamHealth) : HealthEvent → UpstreamHealth
  | timeout source now => health.recordTimeout source now
  | success source now => health.recordSuccess source now

end HealthEvent

/-- The map is the one which the events make. -/
def Records (health : UpstreamHealth) (events : List HealthEvent) : Prop :=
  ∀ id, health id = HealthEvent.entry (HealthEvent.escalation id events)

theorem records_empty : Records (fun _ => none) [] :=
  fun _ => rfl

namespace Records

variable {health : UpstreamHealth} {events : List HealthEvent}

theorem timeout (records : Records health events) (source : String)
    (now : Int) :
    Records (health.recordTimeout source now)
      (.timeout source now :: events) := by
  intro id
  by_cases same : source = id
  · subst same
    unfold UpstreamHealth.recordTimeout HealthEvent.escalation
    rw [Function.update_self, if_pos rfl, records]
    cases HealthEvent.escalation source events with
    | nil => rfl
    | cons last earlier =>
        simp only [HealthEvent.entry, Option.elim_some, List.length_cons,
          streakCap, Option.some.injEq, SourceHealth.mk.injEq, and_true]
        omega
  · unfold UpstreamHealth.recordTimeout HealthEvent.escalation
    rw [Function.update_of_ne (Ne.symm same), if_neg same]
    exact records id

theorem success (records : Records health events) (source : String)
    (now : Int) :
    Records (health.recordSuccess source now)
      (.success source now :: events) := by
  intro id
  have known := records source
  unfold UpstreamHealth.recordSuccess HealthEvent.escalation
  by_cases same : source = id
  · subst same
    cases timeouts : HealthEvent.escalation source events with
    | nil =>
        rw [timeouts, HealthEvent.entry] at known
        simp [known, HealthEvent.entry]
    | cons last earlier =>
        rw [timeouts, HealthEvent.entry] at known
        by_cases quiet : recoverySecs ≤ now - last
        · simp [known, quiet, HealthEvent.entry]
        · simp [known, quiet, HealthEvent.entry]
  · rw [if_neg fun both => same both.1, ← records id]
    cases health source with
    | none => rfl
    | some entry =>
        dsimp only
        split
        · exact Function.update_of_ne (Ne.symm same) none health
        · rfl

theorem record (records : Records health events) (event : HealthEvent) :
    Records (event.record health) (event :: events) := by
  cases event with
  | timeout source now => exact records.timeout source now
  | success source now => exact records.success source now

/-- The timeout of a source is the base, twice or four times it, or the
ceiling. -/
theorem timeoutMs_eq (records : Records health events) (baseMs : Nat)
    (id : String) :
    health.timeoutMs baseMs id = UpstreamHealth.schedule baseMs
      (min (HealthEvent.escalation id events).length streakCap) := by
  unfold UpstreamHealth.timeoutMs
  rw [records id]
  cases HealthEvent.escalation id events with
  | nil => rfl
  | cons last earlier => rfl

theorem isSlow_iff (records : Records health events) (id : String) :
    health.isSlow id = true ↔ HealthEvent.escalation id events ≠ [] := by
  unfold UpstreamHealth.isSlow
  rw [records id]
  cases HealthEvent.escalation id events with
  | nil => simp [HealthEvent.entry]
  | cons last earlier =>
      simp only [HealthEvent.entry, Option.any_some, decide_eq_true_eq,
        streakCap, ne_eq, reduceCtorEq, not_false_eq_true, iff_true]
      omega

end Records

end ChartLocker.Egress
