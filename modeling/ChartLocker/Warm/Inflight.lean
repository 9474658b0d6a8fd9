import ChartLocker.Library.KeyedTable
import ChartLocker.Library.Lease
import ChartLocker.Library.Machine

/-!
# The single-flight table

`AppState::inflight` maps a key to a `Weak` reference to a lock.  A caller
asks for the lock of its key, waits for it, works while it holds the guard,
and ends its flight with `inflight_finish`; `fill`, `cache_first_single_flight`,
`fetch_and_learn` and `warm_one` are all of this form.  The table removes an
entry when no strong reference is left, or when the finishing caller has the
only one, so that the strong references, which live in the callers' frames,
decide what the table may forget.

A caller which is dropped, or which returns, gives up its guard first and its
reference to the lock after that, and other callers may run in between.  The
table has a mutex of its own, and a function of the table is one step.
-/

namespace ChartLocker

open Library

/-- `MAX_INFLIGHT_KEYS`. -/
def maxInflightKeys : Nat := 256

/-- How far a caller is which was given a lock. -/
inductive FlightPhase where
  /-- It waits in `lock.lock().await`. -/
  | waiting
  /-- It holds the guard and has not reached `inflight_finish`. -/
  | inside
  /-- It is past `inflight_finish`, or dropped, and still holds the guard. -/
  | leaving
  /-- It has given up the guard, and its reference is about to be dropped. -/
  | parting
  | gone
deriving DecidableEq, Repr

/-- A caller with its strong reference. -/
structure Flight where
  key : String
  lock : Nat
  phase : FlightPhase
deriving DecidableEq, Repr

namespace Flight

def holdsLock (flight : Flight) : Bool :=
  flight.phase != .gone

def holdsGuard (flight : Flight) : Bool :=
  flight.phase == .inside || flight.phase == .leaving

end Flight

/-- An entry of the map, with its weak reference. -/
structure InflightEntry where
  key : String
  lock : Nat
deriving DecidableEq, Repr

/-- The map, every caller which was given a lock, and the number of locks
allocated so far, which is the identity of the next one. -/
structure Inflight where
  map : KeyedTable InflightEntry.key
  callers : List Flight
  locks : Nat

namespace Inflight

/-- `Arc::strong_count`. -/
def strongCount (state : Inflight) (lock : Nat) : Nat :=
  state.callers.countP fun flight =>
    flight.lock == lock && flight.holdsLock

/-- `map.get(key).and_then(Weak::upgrade)`. -/
def upgrade (state : Inflight) (key : String) : Option Nat :=
  (state.map.lookup key).bind fun entry =>
    if 0 < state.strongCount entry.lock then some entry.lock else none

/-- The map without the entries of which no strong reference is left, and
without the entry of the key, which was found to be such an entry. -/
def pruned (state : Inflight) (key : String) :
    KeyedTable InflightEntry.key :=
  (state.map.deleteWhere fun entry => entry.key == key).deleteWhere
    fun entry => !decide (0 < state.strongCount entry.lock)

/-- `inflight_lock`, with the lock which it returns. -/
def inflightLock (state : Inflight) (key : String) :
    Inflight × Option Nat :=
  match state.upgrade key with
  | some lock =>
      ({ state with callers := state.callers ++ [⟨key, lock, .waiting⟩] },
        some lock)
  | none =>
      if maxInflightKeys ≤ (state.pruned key).rows.length then
        ({ state with map := state.pruned key }, none)
      else
        ({ map := (state.pruned key).insertOrReplace ⟨key, state.locks⟩
           callers := state.callers ++ [⟨key, state.locks, .waiting⟩]
           locks := state.locks + 1 },
          some state.locks)

/-- A caller moves on to its next phase. -/
def advance (state : Inflight) (caller : Nat) (flight : Flight)
    (phase : FlightPhase) : Inflight :=
  { state with callers := state.callers.set caller { flight with phase } }

/-- `inflight_finish`: the entry is removed if it is the caller's own and the
caller has the only strong reference. -/
def inflightFinish (state : Inflight) (caller : Nat) (flight : Flight) :
    Inflight :=
  let finished := state.advance caller flight .leaving
  if state.upgrade flight.key = some flight.lock ∧
      state.strongCount flight.lock = 1 then
    { finished with map := finished.map.deleteWhere fun entry =>
        entry.key == flight.key }
  else finished

/-- `inflight_contains`, with its answer. -/
def inflightContains (state : Inflight) (key : String) : Inflight × Bool :=
  if (state.upgrade key).isSome then (state, true)
  else
    ({ state with map := state.map.deleteWhere fun entry =>
        entry.key == key }, false)

/-- Whether some caller has the guard of a lock. -/
def locked (state : Inflight) (lock : Nat) : Bool :=
  state.callers.any fun flight =>
    flight.lock == lock && flight.holdsGuard

/-- The steps of the callers.  A caller may be dropped wherever it awaits:
for the lock, in the work which it does under the guard, or for the map. -/
inductive Label where
  | inflightLock (key : String)
  | inflightContains (key : String)
  | acquire (caller : Nat)
  | inflightFinish (caller : Nat)
  | dropped (caller : Nat)
  | releaseGuard (caller : Nat)
  | releaseLock (caller : Nat)
deriving DecidableEq, Repr

/-- The callers which a step is about, and what it makes of them.  Which of
several waiting callers gets a free lock is left open. -/
def step (state : Inflight) : Label → Option Inflight
  | .inflightLock key => some (state.inflightLock key).1
  | .inflightContains key => some (state.inflightContains key).1
  | .acquire caller => do
      let flight ← state.callers[caller]?
      if flight.phase = .waiting ∧ state.locked flight.lock = false then
        some (state.advance caller flight .inside)
      else none
  | .inflightFinish caller => do
      let flight ← state.callers[caller]?
      if flight.phase = .inside then
        some (state.inflightFinish caller flight)
      else none
  | .dropped caller => do
      let flight ← state.callers[caller]?
      match flight.phase with
      | .waiting => some (state.advance caller flight .parting)
      | .inside => some (state.advance caller flight .leaving)
      | _ => none
  | .releaseGuard caller => do
      let flight ← state.callers[caller]?
      if flight.phase = .leaving then
        some (state.advance caller flight .parting)
      else none
  | .releaseLock caller => do
      let flight ← state.callers[caller]?
      if flight.phase = .parting then
        some (state.advance caller flight .gone)
      else none

end Inflight

/-- The table as `AppState::new` makes it, under any callers. -/
def inflightMachine : Machine Inflight Inflight.Label where
  initial state := state = ⟨KeyedTable.empty, [], 0⟩
  step := Inflight.step

namespace Inflight

/-! ## Strong references -/

/-- Two positions of a list which satisfy a predicate that at most one entry
satisfies are one position. -/
theorem index_eq_of_countP_le_one {α : Type} {test : α → Bool}
    {entries : List α} (few : entries.countP test ≤ 1) {left right : Nat}
    {first second : α} (leftAt : entries[left]? = some first)
    (rightAt : entries[right]? = some second) (firstTest : test first)
    (secondTest : test second) : left = right := by
  induction entries generalizing left right with
  | nil => simp at leftAt
  | cons entry entries induction =>
      rw [List.countP_cons] at few
      have present : ∀ {position : Nat} {found : α},
          entries[position]? = some found → test found →
            0 < entries.countP test := by
        intro position found at_ satisfied
        apply List.countP_pos_iff.mpr
        exact ⟨found, List.mem_of_getElem? at_, satisfied⟩
      cases left with
      | zero =>
          cases right with
          | zero => rfl
          | succ right =>
              have same : entry = first := by simpa using leftAt
              have later := present (by simpa using rightAt) secondTest
              rw [same, if_pos firstTest] at few
              omega
      | succ left =>
          cases right with
          | zero =>
              have same : entry = second := by simpa using rightAt
              have later := present (by simpa using leftAt) firstTest
              rw [same, if_pos secondTest] at few
              omega
          | succ right =>
              have fewer : entries.countP test ≤ 1 := by omega
              have tails := induction fewer (by simpa using leftAt)
                (by simpa using rightAt)
              rw [tails]

theorem strongCount_pos {state : Inflight} {flight : Flight}
    (member : flight ∈ state.callers) (holds : flight.holdsLock) :
    0 < state.strongCount flight.lock := by
  apply List.countP_pos_iff.mpr
  exact ⟨flight, member, by simp [holds]⟩

/-- The only strong reference belongs to one caller. -/
theorem caller_eq_of_strongCount_one {state : Inflight} {lock : Nat}
    (one : state.strongCount lock = 1) {left right : Nat}
    {first second : Flight} (leftAt : state.callers[left]? = some first)
    (rightAt : state.callers[right]? = some second)
    (firstLock : first.lock = lock) (secondLock : second.lock = lock)
    (firstHolds : first.holdsLock) (secondHolds : second.holdsLock) :
    left = right :=
  index_eq_of_countP_le_one (Nat.le_of_eq one) leftAt rightAt
    (by simp [firstLock, firstHolds]) (by simp [secondLock, secondHolds])

theorem upgrade_eq_some {state : Inflight} {key : String} {lock : Nat} :
    state.upgrade key = some lock ↔
      state.map.lookup key = some ⟨key, lock⟩ ∧
        0 < state.strongCount lock := by
  constructor
  · intro upgraded
    obtain ⟨entry, found, live⟩ := Option.bind_eq_some_iff.mp upgraded
    have sameKey := KeyedTable.lookup_key _ found
    split at live
    · obtain rfl : entry.lock = lock := by simpa using live
      subst sameKey
      exact ⟨found, by assumption⟩
    · contradiction
  · rintro ⟨found, live⟩
    simp [upgrade, found, live]

/-! ## What a function of the table keeps -/

/-- A live entry outlives the pruning for a key whose own entry is dead. -/
theorem lookup_pruned {state : Inflight} {key wanted : String}
    {entry : InflightEntry} (dead : state.upgrade key = none)
    (found : state.map.lookup wanted = some entry)
    (live : 0 < state.strongCount entry.lock) :
    wanted ≠ key ∧ (state.pruned key).lookup wanted = some entry := by
  have entryKey : entry.key = wanted := KeyedTable.lookup_key _ found
  have apart : wanted ≠ key := by
    rintro rfl
    have upgraded : state.upgrade wanted = some entry.lock :=
      upgrade_eq_some.mpr ⟨by rw [found, ← entryKey], live⟩
    cases dead.symm.trans upgraded
  refine ⟨apart, ?_⟩
  simp [pruned, KeyedTable.lookup_deleteWhere, found, entryKey, apart, live]

theorem lookup_inflightLock {state : Inflight} {key wanted : String}
    {entry : InflightEntry} (found : state.map.lookup wanted = some entry)
    (live : 0 < state.strongCount entry.lock) :
    (state.inflightLock key).1.map.lookup wanted = some entry := by
  unfold inflightLock
  cases upgraded : state.upgrade key with
  | some lock => exact found
  | none =>
      obtain ⟨apart, kept⟩ := lookup_pruned upgraded found live
      dsimp only
      split
      · exact kept
      · rw [KeyedTable.lookup_insertOrReplace, if_neg apart]
        exact kept

theorem lookup_inflightContains {state : Inflight} {key wanted : String}
    {entry : InflightEntry} (found : state.map.lookup wanted = some entry)
    (live : 0 < state.strongCount entry.lock) :
    (state.inflightContains key).1.map.lookup wanted = some entry := by
  unfold inflightContains
  split
  · exact found
  · rename_i dead
    have none : state.upgrade key = none := by simpa using dead
    have apart := (lookup_pruned none found live).1
    have entryKey : entry.key = wanted := KeyedTable.lookup_key _ found
    simp [KeyedTable.lookup_deleteWhere, found, entryKey, apart]

/-- `inflight_finish` keeps every entry which is not its own. -/
theorem lookup_inflightFinish {state : Inflight} {caller : Nat}
    {flight : Flight} {wanted : String} {entry : InflightEntry}
    (found : state.map.lookup wanted = some entry)
    (kept : entry.lock = flight.lock → state.strongCount flight.lock ≠ 1) :
    (state.inflightFinish caller flight).map.lookup wanted = some entry := by
  unfold inflightFinish
  dsimp only
  split
  · rename_i removes
    have own := (upgrade_eq_some.mp removes.1).1
    have apart : wanted ≠ flight.key := by
      rintro rfl
      rw [found] at own
      have same : entry.lock = flight.lock := by
        rw [Option.some.inj own]
      exact kept same removes.2
    have entryKey : entry.key = wanted := KeyedTable.lookup_key _ found
    simp [advance, KeyedTable.lookup_deleteWhere, found, entryKey, apart]
  · exact found

/-! ## The invariant -/

/-- What holds of the table between two steps. -/
structure Sound (state : Inflight) : Prop where
  bounded : state.map.rows.length ≤ maxInflightKeys
  /-- The lock of a caller which waits or works is the one in the map. -/
  current : ∀ flight ∈ state.callers,
    flight.phase = .waiting ∨ flight.phase = .inside →
      state.map.lookup flight.key = some ⟨flight.key, flight.lock⟩
  /-- A guard is exclusive. -/
  guarded : ∀ (left right : Nat) (first second : Flight),
    state.callers[left]? = some first →
      state.callers[right]? = some second →
        first.holdsGuard → second.holdsGuard →
          first.lock = second.lock → left = right

theorem sound_empty : Sound ⟨KeyedTable.empty, [], 0⟩ where
  bounded := Nat.zero_le _
  current := by simp
  guarded := by simp

theorem getElem?_advance {state : Inflight} {caller : Nat}
    {flight : Flight} (known : state.callers[caller]? = some flight)
    (phase : FlightPhase) (other : Nat) :
    (state.advance caller flight phase).callers[other]? =
      if caller = other then some { flight with phase }
      else state.callers[other]? := by
  have inRange : caller < state.callers.length :=
    (List.getElem?_eq_some_iff.mp known).1
  simp [advance, List.getElem?_set, inRange]

/-- A caller found after an advance is the one which moved, or is as it was. -/
theorem advance_cases {state : Inflight} {caller other : Nat}
    {flight found : Flight} {phase : FlightPhase}
    (known : state.callers[caller]? = some flight)
    (at_ : (state.advance caller flight phase).callers[other]? =
      some found) :
    (caller = other ∧ found = { flight with phase }) ∨
      (caller ≠ other ∧ state.callers[other]? = some found) := by
  rw [getElem?_advance known] at at_
  split at at_
  · exact .inl ⟨by assumption, (Option.some.inj at_).symm⟩
  · exact .inr ⟨by assumption, at_⟩

/-- A caller which moves keeps the invariant if it has the lock of the map
where the invariant asks for it, and a guard only if nobody else has it. -/
theorem Sound.advance {state : Inflight} (sound : state.Sound)
    {caller : Nat} {flight : Flight} {phase : FlightPhase}
    (known : state.callers[caller]? = some flight)
    (active : phase = .waiting ∨ phase = .inside →
      flight.phase = .waiting ∨ flight.phase = .inside)
    (guard : phase = .inside ∨ phase = .leaving →
      flight.holdsGuard ∨ state.locked flight.lock = false) :
    (state.advance caller flight phase).Sound := by
  have holders : ∀ (other : Nat) (found : Flight),
      state.callers[other]? = some found →
      phase = .inside ∨ phase = .leaving → found.holdsGuard →
        flight.lock = found.lock → caller = other := by
    intro other found at_ moved holds same
    rcases guard moved with before | free
    · exact sound.guarded _ _ _ _ known at_ before holds same
    · have taken : state.locked flight.lock = true :=
        List.any_eq_true.mpr ⟨found, List.mem_of_getElem? at_,
          by simp [same, holds]⟩
      cases free.symm.trans taken
  refine ⟨sound.bounded, ?_, ?_⟩
  · intro found member asks
    obtain ⟨other, at_⟩ := List.mem_iff_getElem?.mp member
    rcases advance_cases known at_ with ⟨_, rfl⟩ | ⟨_, old⟩
    · exact sound.current flight (List.mem_of_getElem? known) (active asks)
    · exact sound.current found (List.mem_of_getElem? old) asks
  · intro left right first second leftAt rightAt leftHolds rightHolds same
    rcases advance_cases known leftAt with ⟨rfl, rfl⟩ | ⟨_, leftOld⟩
    · have moved : phase = .inside ∨ phase = .leaving := by
        simpa [Flight.holdsGuard] using leftHolds
      rcases advance_cases known rightAt with ⟨rfl, rfl⟩ | ⟨_, rightOld⟩
      · rfl
      · exact holders right second rightOld moved rightHolds same
    · rcases advance_cases known rightAt with ⟨rfl, rfl⟩ | ⟨_, rightOld⟩
      · have moved : phase = .inside ∨ phase = .leaving := by
          simpa [Flight.holdsGuard] using rightHolds
        exact (holders left first leftOld moved leftHolds same.symm).symm
      · exact sound.guarded _ _ _ _ leftOld rightOld leftHolds rightHolds
          same

/-- A map which keeps the live entries keeps the invariant. -/
theorem Sound.withMap {state : Inflight} (sound : state.Sound)
    {map : KeyedTable InflightEntry.key} (locks : Nat)
    (bounded : map.rows.length ≤ maxInflightKeys)
    (keeps : ∀ flight ∈ state.callers,
      flight.phase = .waiting ∨ flight.phase = .inside →
        state.map.lookup flight.key = some ⟨flight.key, flight.lock⟩ →
          map.lookup flight.key = some ⟨flight.key, flight.lock⟩) :
    Sound ⟨map, state.callers, locks⟩ where
  bounded := bounded
  current flight member asks :=
    keeps flight member asks (sound.current flight member asks)
  guarded := sound.guarded

theorem holdsLock_of_active {flight : Flight}
    (asks : flight.phase = .waiting ∨ flight.phase = .inside) :
    flight.holdsLock := by
  rcases asks with phase | phase <;> simp [Flight.holdsLock, phase]

theorem length_deleteWhere_le (map : KeyedTable InflightEntry.key)
    (drop : InflightEntry → Bool) :
    (map.deleteWhere drop).rows.length ≤ map.rows.length :=
  List.length_filter_le _ _

/-- A newcomer which waits for the lock in the map. -/
theorem Sound.joins {state : Inflight} (sound : state.Sound)
    {key : String} {lock : Nat}
    (found : state.map.lookup key = some ⟨key, lock⟩) :
    Sound { state with
      callers := state.callers ++ [⟨key, lock, .waiting⟩] } := by
  have old : ∀ (position : Nat) (flight : Flight),
      (state.callers ++ [⟨key, lock, .waiting⟩])[position]? = some flight →
        flight.holdsGuard → state.callers[position]? = some flight := by
    intro position flight at_ holds
    rw [List.getElem?_append] at at_
    split at at_
    · exact at_
    · obtain rfl := List.mem_singleton.mp (List.mem_of_getElem? at_)
      simp [Flight.holdsGuard] at holds
  refine ⟨sound.bounded, ?_, ?_⟩
  · intro flight member asks
    rcases List.mem_append.mp member with before | new
    · exact sound.current flight before asks
    · obtain rfl := List.mem_singleton.mp new
      exact found
  · intro left right first second leftAt rightAt leftHolds rightHolds same
    exact sound.guarded _ _ _ _ (old _ _ leftAt leftHolds)
      (old _ _ rightAt rightHolds) leftHolds rightHolds same

theorem Sound.inflightLock {state : Inflight} (sound : state.Sound)
    (key : String) : (state.inflightLock key).1.Sound := by
  have keeps : ∀ flight ∈ state.callers,
      flight.phase = .waiting ∨ flight.phase = .inside →
        state.map.lookup flight.key = some ⟨flight.key, flight.lock⟩ →
          (state.inflightLock key).1.map.lookup flight.key =
            some ⟨flight.key, flight.lock⟩ :=
    fun flight member asks found => lookup_inflightLock found
      (strongCount_pos member (holdsLock_of_active asks))
  cases upgraded : state.upgrade key with
  | some lock =>
      simp only [Inflight.inflightLock, upgraded]
      exact sound.joins (upgrade_eq_some.mp upgraded).1
  | none =>
      have fewer : (state.pruned key).rows.length ≤ maxInflightKeys :=
        (length_deleteWhere_le _ _).trans
          ((length_deleteWhere_le _ _).trans sound.bounded)
      simp only [Inflight.inflightLock, upgraded] at keeps ⊢
      split at keeps
      · rename_i full
        rw [if_pos full]
        exact sound.withMap _ fewer keeps
      · rename_i room
        rw [if_neg room]
        have bounded : ((state.pruned key).insertOrReplace
            ⟨key, state.locks⟩).rows.length ≤ maxInflightKeys := by
          have shorter := List.length_filter_le
            (fun old : InflightEntry => decide (old.key ≠ key))
            (state.pruned key).rows
          simp only [KeyedTable.insertOrReplace, List.length_append,
            List.length_singleton]
          omega
        have enlarged := sound.withMap (state.locks + 1) bounded keeps
        apply enlarged.joins
        rw [KeyedTable.lookup_insertOrReplace, if_pos rfl]

theorem Sound.inflightContains {state : Inflight} (sound : state.Sound)
    (key : String) : (state.inflightContains key).1.Sound := by
  have keeps : ∀ flight ∈ state.callers,
      flight.phase = .waiting ∨ flight.phase = .inside →
        state.map.lookup flight.key = some ⟨flight.key, flight.lock⟩ →
          (state.inflightContains key).1.map.lookup flight.key =
            some ⟨flight.key, flight.lock⟩ :=
    fun flight member asks found => lookup_inflightContains found
      (strongCount_pos member (holdsLock_of_active asks))
  unfold Inflight.inflightContains at keeps ⊢
  split at keeps
  · rename_i live
    rw [if_pos live]
    exact sound
  · rename_i dead
    rw [if_neg dead]
    exact sound.withMap _
      ((length_deleteWhere_le _ _).trans sound.bounded) keeps

/-- The finishing caller removes its entry only when no other caller has a
reference to its lock, whether it waits, works, or is about to go. -/
theorem Sound.inflightFinish {state : Inflight} (sound : state.Sound)
    {caller : Nat} {flight : Flight}
    (known : state.callers[caller]? = some flight)
    (works : flight.phase = .inside) :
    (state.inflightFinish caller flight).Sound := by
  have advanced : (state.advance caller flight .leaving).Sound :=
    sound.advance known (by simp) fun _ =>
      .inl (by simp [Flight.holdsGuard, works])
  have keeps : ∀ found ∈ (state.advance caller flight .leaving).callers,
      found.phase = .waiting ∨ found.phase = .inside →
        (state.advance caller flight .leaving).map.lookup found.key =
          some ⟨found.key, found.lock⟩ →
        (state.inflightFinish caller flight).map.lookup found.key =
          some ⟨found.key, found.lock⟩ := by
    intro found member asks entry
    have before : state.map.lookup found.key =
        some ⟨found.key, found.lock⟩ := entry
    apply lookup_inflightFinish before
    intro same one
    obtain ⟨other, at_⟩ := List.mem_iff_getElem?.mp member
    rcases advance_cases known at_ with ⟨_, rfl⟩ | ⟨apart, old⟩
    · simp at asks
    · exact apart (caller_eq_of_strongCount_one one known old rfl same
        (holdsLock_of_active (.inr works)) (holdsLock_of_active asks))
  unfold Inflight.inflightFinish at keeps ⊢
  dsimp only at keeps ⊢
  split at keeps
  · rename_i removes
    rw [if_pos removes]
    exact advanced.withMap _
      ((length_deleteWhere_le _ _).trans advanced.bounded) keeps
  · rename_i stays
    rw [if_neg stays]
    exact advanced

/-! ## Runs -/

/-- What a step can do: a function of the table runs, or one caller moves on
under the table as it is. -/
theorem step_cases {state next : Inflight} {label : Label}
    (stepped : state.step label = some next) :
    (∃ key, label = .inflightLock key ∧
      next = (state.inflightLock key).1) ∨
    (∃ key, label = .inflightContains key ∧
      next = (state.inflightContains key).1) ∨
    (∃ caller flight, label = .inflightFinish caller ∧
      state.callers[caller]? = some flight ∧ flight.phase = .inside ∧
      next = state.inflightFinish caller flight) ∨
    (∃ caller flight phase, state.callers[caller]? = some flight ∧
      (phase = .waiting ∨ phase = .inside →
        flight.phase = .waiting ∨ flight.phase = .inside) ∧
      (phase = .inside ∨ phase = .leaving →
        flight.holdsGuard ∨ state.locked flight.lock = false) ∧
      next = state.advance caller flight phase) := by
  cases label with
  | inflightLock key =>
      exact .inl ⟨key, rfl, (Option.some.inj stepped).symm⟩
  | inflightContains key =>
      exact .inr (.inl ⟨key, rfl, (Option.some.inj stepped).symm⟩)
  | inflightFinish caller =>
      obtain ⟨flight, known, ends⟩ := Option.bind_eq_some_iff.mp stepped
      split at ends
      · exact .inr (.inr (.inl ⟨caller, flight, rfl, known, by assumption,
          (Option.some.inj ends).symm⟩))
      · contradiction
  | acquire caller =>
      obtain ⟨flight, known, enters⟩ := Option.bind_eq_some_iff.mp stepped
      split at enters
      · rename_i may
        exact .inr (.inr (.inr ⟨caller, flight, .inside, known,
          fun _ => .inl may.1, fun _ => .inr may.2,
          (Option.some.inj enters).symm⟩))
      · contradiction
  | dropped caller =>
      obtain ⟨flight, known, leaves⟩ := Option.bind_eq_some_iff.mp stepped
      split at leaves
      · exact .inr (.inr (.inr ⟨caller, flight, .parting, known, by simp,
          by simp, (Option.some.inj leaves).symm⟩))
      · rename_i works
        exact .inr (.inr (.inr ⟨caller, flight, .leaving, known, by simp,
          fun _ => .inl (by simp [Flight.holdsGuard, works]),
          (Option.some.inj leaves).symm⟩))
      · contradiction
  | releaseGuard caller =>
      obtain ⟨flight, known, releases⟩ :=
        Option.bind_eq_some_iff.mp stepped
      split at releases
      · exact .inr (.inr (.inr ⟨caller, flight, .parting, known, by simp,
          by simp, (Option.some.inj releases).symm⟩))
      · contradiction
  | releaseLock caller =>
      obtain ⟨flight, known, releases⟩ :=
        Option.bind_eq_some_iff.mp stepped
      split at releases
      · exact .inr (.inr (.inr ⟨caller, flight, .gone, known, by simp,
          by simp, (Option.some.inj releases).symm⟩))
      · contradiction

theorem Sound.step {state next : Inflight} {label : Label}
    (sound : state.Sound) (stepped : state.step label = some next) :
    next.Sound := by
  rcases step_cases stepped with ⟨key, _, rfl⟩ | ⟨key, _, rfl⟩ |
    ⟨caller, flight, _, known, works, rfl⟩ |
    ⟨caller, flight, phase, known, active, guard, rfl⟩
  · exact sound.inflightLock key
  · exact sound.inflightContains key
  · exact sound.inflightFinish known works
  · exact sound.advance known active guard

theorem Sound.reachable {state : Inflight}
    (reached : inflightMachine.Reachable state) : state.Sound := by
  apply reached.invariant
  · intro start initial
    exact initial ▸ sound_empty
  · intro before label after sound stepped
    exact sound.step stepped

/-- Two callers which work under one key are one caller: each of them has the
lock which the map has for the key, and a lock has one guard. -/
theorem Sound.exclusive {state : Inflight} (sound : state.Sound)
    {left right : Nat} {first second : Flight}
    (leftAt : state.callers[left]? = some first)
    (rightAt : state.callers[right]? = some second)
    (leftInside : first.phase = .inside)
    (rightInside : second.phase = .inside) (same : first.key = second.key) :
    left = right := by
  have leftEntry := sound.current first (List.mem_of_getElem? leftAt)
    (.inr leftInside)
  have rightEntry := sound.current second (List.mem_of_getElem? rightAt)
    (.inr rightInside)
  rw [same, rightEntry] at leftEntry
  have lock : second.lock = first.lock := by
    simpa [same] using leftEntry
  exact sound.guarded left right first second leftAt rightAt
    (by simp [Flight.holdsGuard, leftInside])
    (by simp [Flight.holdsGuard, rightInside]) lock.symm

/-! ## The keys under which a caller works -/

def flightOf (state : Inflight) (caller : Nat) : Option String :=
  (state.callers[caller]?).bind fun flight =>
    if flight.phase = .inside then some flight.key else none

/-- The registry of the keys, without the map and the callers who wait. -/
def flights (state : Inflight) : Registry String Nat :=
  .ofOwned state.flightOf

theorem flightOf_eq_some {state : Inflight} {caller : Nat} {key : String} :
    state.flightOf caller = some key ↔
      ∃ flight, state.callers[caller]? = some flight ∧
        flight.phase = .inside ∧ flight.key = key := by
  unfold flightOf
  rw [Option.bind_eq_some_iff]
  constructor
  · rintro ⟨flight, known, works⟩
    obtain ⟨inside, same⟩ := Option.ite_none_right_eq_some.mp works
    exact ⟨flight, known, inside, Option.some.inj same⟩
  · rintro ⟨flight, known, inside, rfl⟩
    exact ⟨flight, known, if_pos inside⟩

theorem flightOf_advance {state : Inflight} {caller : Nat} {flight : Flight}
    (known : state.callers[caller]? = some flight) (phase : FlightPhase) :
    (state.advance caller flight phase).flightOf =
      Function.update state.flightOf caller
        (if phase = .inside then some flight.key else none) := by
  funext other
  unfold flightOf
  rw [getElem?_advance known]
  by_cases same : caller = other
  · rw [if_pos same, same, Function.update_self]
    rfl
  · rw [if_neg same, Function.update_of_ne fun equal => same equal.symm]

/-- A newcomer waits. -/
theorem flightOf_append (state : Inflight) (key : String) (lock : Nat)
    (caller : Nat) :
    ((state.callers ++ [⟨key, lock, .waiting⟩])[caller]?).bind
        (fun flight => if flight.phase = .inside then some flight.key
          else none) = state.flightOf caller := by
  unfold flightOf
  rw [List.getElem?_append]
  split
  · rfl
  · next past =>
    have none : state.callers[caller]? = none :=
      List.getElem?_eq_none (Nat.le_of_not_lt past)
    rw [none]
    cases found : ([⟨key, lock, .waiting⟩] : List Flight)[
        caller - state.callers.length]? with
    | none => rfl
    | some flight =>
        obtain rfl := List.mem_singleton.mp (List.mem_of_getElem? found)
        rfl

theorem flightOf_inflightLock (state : Inflight) (key : String) :
    (state.inflightLock key).1.flightOf = state.flightOf := by
  funext caller
  unfold inflightLock
  cases state.upgrade key with
  | some lock => exact flightOf_append state key lock caller
  | none =>
      dsimp only
      split
      · rfl
      · exact flightOf_append state key state.locks caller

theorem flightOf_inflightContains (state : Inflight) (key : String) :
    (state.inflightContains key).1.flightOf = state.flightOf := by
  unfold inflightContains
  split <;> rfl

theorem flightOf_inflightFinish {state : Inflight} {caller : Nat}
    {flight : Flight} (known : state.callers[caller]? = some flight) :
    (state.inflightFinish caller flight).flightOf =
      Function.update state.flightOf caller none := by
  have left := flightOf_advance known .leaving
  unfold inflightFinish
  dsimp only
  split
  · exact left
  · exact left

namespace Sound

variable {state next : Inflight}

theorem flightOf_unique (sound : state.Sound) {left right : Nat}
    {key : String} (first : state.flightOf left = some key)
    (second : state.flightOf right = some key) : left = right := by
  obtain ⟨leftFlight, leftAt, leftInside, leftKey⟩ :=
    flightOf_eq_some.mp first
  obtain ⟨rightFlight, rightAt, rightInside, rightKey⟩ :=
    flightOf_eq_some.mp second
  exact sound.exclusive leftAt rightAt leftInside rightInside
    (leftKey.trans rightKey.symm)

theorem flights (sound : state.Sound) : state.flights.Sound where
  held _ := Iff.rfl
  unique _ _ _ := sound.flightOf_unique

/-- Nobody works under the key of a caller whose lock is free. -/
theorem flightOf_free (sound : state.Sound) {caller : Nat} {flight : Flight}
    (known : state.callers[caller]? = some flight)
    (waits : flight.phase = .waiting)
    (free : state.locked flight.lock = false) (other : Nat) :
    state.flightOf other ≠ some flight.key := by
  intro works
  obtain ⟨holder, found, inside, key⟩ := flightOf_eq_some.mp works
  have mine := sound.current flight (List.mem_of_getElem? known) (.inl waits)
  have its := sound.current holder (List.mem_of_getElem? found) (.inr inside)
  rw [key, mine] at its
  have same : flight.lock = holder.lock := by simpa using its
  have taken : state.locked flight.lock = true :=
    List.any_eq_true.mpr ⟨holder, List.mem_of_getElem? found,
      by simp [same, Flight.holdsGuard, inside]⟩
  cases free.symm.trans taken

end Sound

/-- What a step of the table does to the keys under which a caller works. -/
inductive FlightStep (state next : Inflight) : Prop where
  | keeps (same : next.flightOf = state.flightOf)
  | acquires (caller : Nat) (flight : Flight)
      (known : state.callers[caller]? = some flight)
      (idle : state.flightOf caller = none)
      (free : ∀ other, state.flightOf other ≠ some flight.key)
      (taken : next.flightOf =
        Function.update state.flightOf caller (some flight.key))
  | releases (caller : Nat) (flight : Flight)
      (known : state.callers[caller]? = some flight)
      (works : state.flightOf caller = some flight.key)
      (given : next.flightOf = Function.update state.flightOf caller none)

section Steps

variable {state next : Inflight} {caller : Nat} {flight : Flight}

theorem flightOf_known (known : state.callers[caller]? = some flight) :
    state.flightOf caller =
      if flight.phase = .inside then some flight.key else none := by
  unfold flightOf
  rw [known, Option.bind_some]

/-- A caller which neither works nor begins to changes nothing. -/
theorem FlightStep.rests (known : state.callers[caller]? = some flight)
    (rests : flight.phase ≠ .inside) {phase : FlightPhase}
    (later : phase ≠ .inside) :
    FlightStep state (state.advance caller flight phase) := by
  apply FlightStep.keeps
  rw [flightOf_advance known, if_neg later]
  apply Function.update_eq_self_iff.mpr
  rw [flightOf_known known, if_neg rests]

/-- The table grants a key under which nobody works, takes one back, or does
neither. -/
theorem Sound.flightStep (sound : state.Sound) {label : Label}
    (stepped : state.step label = some next) : FlightStep state next := by
  cases label with
  | inflightLock key =>
      cases stepped
      exact .keeps (flightOf_inflightLock state key)
  | inflightContains key =>
      cases stepped
      exact .keeps (flightOf_inflightContains state key)
  | acquire caller =>
      obtain ⟨flight, known, enters⟩ := Option.bind_eq_some_iff.mp stepped
      split at enters
      · next may =>
        cases enters
        refine .acquires caller flight known ?_
          (sound.flightOf_free known may.1 may.2) (flightOf_advance known _)
        rw [flightOf_known known, may.1]
        rfl
      · contradiction
  | inflightFinish caller =>
      obtain ⟨flight, known, ends⟩ := Option.bind_eq_some_iff.mp stepped
      split at ends
      · next works =>
        cases ends
        refine .releases caller flight known ?_ (flightOf_inflightFinish known)
        rw [flightOf_known known, if_pos works]
      · contradiction
  | dropped caller =>
      obtain ⟨flight, known, leaves⟩ := Option.bind_eq_some_iff.mp stepped
      split at leaves
      · next waits =>
        cases leaves
        exact .rests known (by rw [waits]; decide) (by decide)
      · next works =>
        cases leaves
        refine .releases caller flight known ?_ (flightOf_advance known _)
        rw [flightOf_known known, if_pos works]
      · contradiction
  | releaseGuard caller =>
      obtain ⟨flight, known, releases⟩ :=
        Option.bind_eq_some_iff.mp stepped
      split at releases
      · next leaving =>
        cases releases
        exact .rests known (by rw [leaving]; decide) (by decide)
      · contradiction
  | releaseLock caller =>
      obtain ⟨flight, known, releases⟩ :=
        Option.bind_eq_some_iff.mp stepped
      split at releases
      · next parting =>
        cases releases
        exact .rests known (by rw [parting]; decide) (by decide)
      · contradiction

end Steps

/-- The step which takes away an entry whose lock some caller still has is
that caller's own `inflight_finish`. -/
theorem finishes_of_entry_lost {state next : Inflight} {label : Label}
    (stepped : state.step label = some next) {entry : InflightEntry}
    (found : state.map.lookup entry.key = some entry)
    (lost : next.map.lookup entry.key ≠ some entry) {holder : Nat}
    {flight : Flight} (known : state.callers[holder]? = some flight)
    (holds : flight.holdsLock) (has : flight.lock = entry.lock) :
    label = .inflightFinish holder := by
  have live : 0 < state.strongCount entry.lock := by
    rw [← has]
    exact strongCount_pos (List.mem_of_getElem? known) holds
  rcases step_cases stepped with ⟨key, _, rfl⟩ | ⟨key, _, rfl⟩ |
    ⟨caller, finishing, rfl, at_, works, rfl⟩ |
    ⟨caller, moving, phase, _, _, _, rfl⟩
  · exact absurd (lookup_inflightLock found live) lost
  · exact absurd (lookup_inflightContains found live) lost
  · by_cases alone : entry.lock = finishing.lock ∧
        state.strongCount finishing.lock = 1
    · have same := caller_eq_of_strongCount_one alone.2 at_ known rfl
        (has.trans alone.1) (holdsLock_of_active (.inr works)) holds
      rw [same]
    · have kept : entry.lock = finishing.lock →
          state.strongCount finishing.lock ≠ 1 :=
        fun same one => alone ⟨same, one⟩
      exact absurd (lookup_inflightFinish found kept) lost
  · exact absurd found lost

/-- Single flight for each key, however the callers arrive, finish and are
dropped: one of them works at a time, an entry goes only when nobody but the
finishing caller has its lock, and the map stays within its bound. -/
theorem single_flight_per_key {state : Inflight}
    (reached : inflightMachine.Reachable state) :
    (∀ (left right : Nat) (first second : Flight),
      state.callers[left]? = some first →
      state.callers[right]? = some second →
      first.phase = .inside → second.phase = .inside →
      first.key = second.key → left = right) ∧
    (∀ (label : Label) (next : Inflight) (entry : InflightEntry)
        (holder : Nat) (flight : Flight),
      state.step label = some next →
      state.map.lookup entry.key = some entry →
      next.map.lookup entry.key ≠ some entry →
      state.callers[holder]? = some flight → flight.phase ≠ .gone →
      flight.lock = entry.lock → label = .inflightFinish holder) ∧
    state.map.rows.length ≤ maxInflightKeys := by
  have sound := Sound.reachable reached
  refine ⟨?_, ?_, sound.bounded⟩
  · intro left right first second leftAt rightAt leftInside rightInside same
    exact sound.exclusive leftAt rightAt leftInside rightInside same
  · intro label next entry holder flight stepped found lost known holds has
    apply finishes_of_entry_lost stepped found lost known _ has
    simpa [Flight.holdsLock] using holds

/-- A caller is dropped while it works, another waits for its lock, and a
third one asks after the drop. -/
theorem single_flight_after_drop :
    ∃ state, inflightMachine.exec ⟨KeyedTable.empty, [], 0⟩
        [.inflightLock "k", .acquire 0, .inflightLock "k", .dropped 0,
          .releaseGuard 0, .acquire 1, .inflightLock "k"] = some state ∧
      ∀ (left right : Nat) (first second : Flight),
        state.callers[left]? = some first →
        state.callers[right]? = some second →
        first.phase = .inside → second.phase = .inside →
        first.key = second.key → left = right := by
  refine ⟨_, rfl, ?_⟩
  exact (single_flight_per_key ⟨_, [.inflightLock "k", .acquire 0,
    .inflightLock "k", .dropped 0, .releaseGuard 0, .acquire 1,
    .inflightLock "k"], rfl, rfl⟩).1

end Inflight

end ChartLocker
