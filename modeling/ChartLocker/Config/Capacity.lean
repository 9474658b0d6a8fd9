import ChartLocker.Cache.Capacity
import ChartLocker.Config.Parity

/-!
# The cap and the pinned set

A push enforces its cap before it publishes anything, and is answered
`capBelowPinnedBytes` when the pinned set alone is larger.  Pushing the same
cap again is therefore refused exactly in the states in which the pinned set
has outgrown it.
-/

namespace ChartLocker.Config

open Library Cache

variable {Document : Type}

/-- The enforcement of a cap is not answered `capBelowPinnedBytes`. -/
def CapAccepted (env : Environment Document) (state : AppState Document)
    (cap : Int) : Prop :=
  ∀ pinnedBytes,
    (perform env state (.enforceCap cap) .ok).2 ≠ .irreducible pinnedBytes

theorem capAccepted_iff (env : Environment Document)
    (state : AppState Document) (cap : Int) :
    CapAccepted env state cap ↔ state.cache.pinnedBytes ≤ cap := by
  unfold CapAccepted
  simp only [perform]
  split
  · rename_i excess
    constructor
    · intro accepted
      exact absurd rfl (accepted state.cache.pinnedBytes)
    · intro within
      omega
  · rename_i within
    exact iff_of_true (fun _ => by simp) (Int.not_lt.mp within)

theorem withinCap_opened {cap : Int} (positive : 0 < cap) (deferred : Bool) :
    WithinCap cap (TileCache.opened deferred Tables.empty) where
  exact := TileCache.exact_opened deferred Tables.empty
  sized := by
    cases deferred with
    | true => exact Tables.stores_empty
    | false => exact Tables.stores_empty.setPinned _ false
  pinned := by
    cases deferred with
    | true => exact Int.le_of_lt positive
    | false => exact Int.le_of_lt positive

/-- In a run of cache calls under one cap, the pinned set stays within the cap
in every state, and the same cap is accepted again, exactly if every live
fill over a pinned row finds room for what it adds. -/
theorem pinned_within_cap_iff {cap : Int} (positive : 0 < cap)
    (deferred : Bool) {ops : List CacheOp}
    (under : ∀ op ∈ ops, op.UnderCap cap) :
    (∀ before after cache, ops = before ++ after →
      cacheMachine.exec (TileCache.opened deferred Tables.empty) before =
          some cache →
        cache.pinnedBytes ≤ cap ∧
          ∀ (env : Environment Document) (state : AppState Document),
            state.cache = cache → CapAccepted env state cap) ↔
      cacheMachine.AllSteps (fun cache op => op.FindsRoom cap cache)
        (TileCache.opened deferred Tables.empty) ops := by
  have reach : ∀ {before after cache}, ops = before ++ after →
      cacheMachine.AllSteps (fun cache op => op.FindsRoom cap cache)
        (TileCache.opened deferred Tables.empty) before →
      cacheMachine.exec (TileCache.opened deferred Tables.empty) before =
          some cache →
        WithinCap cap cache := by
    intro before after cache split room run
    have limits : cacheMachine.AllSteps (fun _ op => op.UnderCap cap)
        (TileCache.opened deferred Tables.empty) before :=
      Machine.allSteps_of_labels fun op member _ =>
        under op (split ▸ List.mem_append_left after member)
    refine Machine.exec_preserves_of_allSteps ?_ run
      (Machine.allSteps_and room limits)
      (withinCap_opened positive deferred)
    intro state op next within meets stepped
    obtain rfl : op.apply state = next := Option.some.inj stepped
    exact within.apply meets.2 meets.1
  constructor
  · intro bounded
    -- The first fill without room is the last call of a prefix which ends
    -- above the cap.
    obtain ⟨final, run⟩ : ∃ final, cacheMachine.exec
        (TileCache.opened deferred Tables.empty) ops = some final :=
      ⟨_, cacheMachine_exec _ ops⟩
    rcases Machine.allSteps_or_first
      (fun cache op => CacheOp.FindsRoom cap cache op) run with
      all | ⟨before, op, after, cache, next, rfl, earlier, stepped, room,
        tight⟩
    · exact all
    · have within := reach rfl room earlier
      obtain rfl : op.apply cache = next := Option.some.inj stepped
      have above := bounded (before ++ [op]) after (op.apply cache) (by simp)
        (Machine.exec_append_eq_some.mpr ⟨cache, earlier, rfl⟩)
      exact absurd ((pinnedBytes_apply_le within
        (under op (by simp))).mp above.1) tight
  · intro room before after cache split run
    subst split
    have within := reach rfl (Machine.allSteps_append.mp room).1 run
    refine ⟨within.pinned, fun env state same => ?_⟩
    exact (capAccepted_iff env state cap).mpr (same ▸ within.pinned)

/-- A saved tile which a later live fill replaces by a larger one. -/
def outgrownCalls : List CacheOp :=
  [.putManyPinned ⟨none, 0⟩ [⟨⟨"osm", 1, 0, 0⟩, sampleTile 30⟩] 100 100
      (some "harbour") 5,
    .put ⟨none, 0⟩ ⟨"osm", 1, 0, 0⟩ (sampleTile 200) false 6]

theorem outgrownCalls_refuse_cap :
    ∃ cache state, cacheMachine.exec
        (TileCache.opened false Tables.empty) outgrownCalls = some cache ∧
      cache.pinnedBytes = 200 ∧
      state = { firstBoot sampleEnvironment with cache := cache } ∧
      (perform sampleEnvironment state (.enforceCap 100) .ok).2 =
        .irreducible 200 := by
  exact ⟨_, _, rfl, by decide, rfl, rfl⟩

/-- A saved tile which a later live fill replaces within the cap. -/
def grownCalls : List CacheOp :=
  [.putManyPinned ⟨none, 0⟩ [⟨⟨"osm", 1, 0, 0⟩, sampleTile 30⟩] 100 100
      (some "harbour") 5,
    .put ⟨none, 0⟩ ⟨"osm", 1, 0, 0⟩ (sampleTile 60) false 6]

theorem pinned_within_cap_iff_grownCalls :
    ∃ cache, cacheMachine.exec
        (TileCache.opened false Tables.empty) grownCalls = some cache ∧
      cache.pinnedBytes = 60 ∧
      CapAccepted sampleEnvironment
        { firstBoot sampleEnvironment with cache := cache } 100 := by
  have room : cacheMachine.AllSteps
      (fun cache op => CacheOp.FindsRoom 100 cache op)
      (TileCache.opened false Tables.empty) grownCalls := by
    refine ⟨trivial, fun first stepped => ⟨?_, fun _ _ => trivial⟩⟩
    obtain rfl := cacheMachine_step.mp stepped
    intro _
    decide
  have under : ∀ op ∈ grownCalls, CacheOp.UnderCap 100 op := by
    simp [grownCalls, CacheOp.UnderCap, CachedTile.Sized, sampleTile]
  obtain ⟨cache, run, grown⟩ : ∃ cache, cacheMachine.exec
      (TileCache.opened false Tables.empty) grownCalls = some cache ∧
      cache.pinnedBytes = 60 :=
    ⟨_, rfl, by decide⟩
  have within := (@pinned_within_cap_iff Nat 100 (by decide) false
    grownCalls under).mpr room grownCalls [] cache (by simp) run
  exact ⟨cache, run, grown, within.2 sampleEnvironment _ rfl⟩

end ChartLocker.Config
