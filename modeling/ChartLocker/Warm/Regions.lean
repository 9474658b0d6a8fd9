import ChartLocker.Cache.Tables

/-!
# Region and job identifiers

A warm job downloads into staging regions which are named after the job.  The
names never collide: not with one another, not with those of another job, and
not with a region which a caller may name.
-/

namespace ChartLocker.Warm

open Cache

/-- `u8::is_ascii_alphanumeric` and the three punctuation bytes. -/
def regionIdChar (char : Char) : Bool :=
  ('a' ≤ char && char ≤ 'z') || ('A' ≤ char && char ≤ 'Z') ||
    ('0' ≤ char && char ≤ '9') || char == '.' || char == '_' || char == '-'

def validRegionId (regionId : String) : Bool :=
  regionId == positionWarmRegionId ||
    (regionId != "" && decide (regionId.utf8ByteSize ≤ 128) &&
      regionId != basemapAssetsRegionId &&
      !startsWith regionId stagingRegionPrefix &&
      regionId.toList.all regionIdChar)

/-- The regions which only the warm engine manages. -/
def reservedRegion (regionId : String) : Bool :=
  regionId == positionWarmRegionId || regionId == basemapAssetsRegionId

/-- `format!("warm-{}-{order}", state.boot_id)`. -/
def warmJobId (bootId : String) (order : Nat) : String :=
  "warm-" ++ bootId ++ "-" ++ order.repr

/-- The staging region of a job which replaces a target region. -/
def stagingRegion (target jobId : String) : String :=
  if target == positionWarmRegionId then
    positionStagingRegionPrefix ++ jobId
  else
    stagingRegionPrefix ++ jobId

def assetStagingRegion (jobId : String) : String :=
  stagingRegionPrefix ++ "assets-" ++ jobId

/-! ## Staging regions and regions of callers -/

theorem startsWith_append (lead rest : String) :
    startsWith (lead ++ rest) lead = true := by
  simp [startsWith, String.toList_append]

/-- What stands between the common prefix of the staging regions and the name
of the job. -/
private theorem stagingRegion_eq (target jobId : String) :
    ∃ kind, (kind = "" ∨ kind = "position-") ∧
      stagingRegion target jobId = stagingRegionPrefix ++ (kind ++ jobId) := by
  have lead : positionStagingRegionPrefix =
      stagingRegionPrefix ++ "position-" := by decide
  unfold stagingRegion
  split
  · exact ⟨_, .inr rfl, by rw [lead, String.append_assoc]⟩
  · exact ⟨_, .inl rfl, by rw [String.empty_append]⟩

theorem startsWith_stagingRegion (target jobId : String) :
    startsWith (stagingRegion target jobId) stagingRegionPrefix = true := by
  obtain ⟨kind, _, same⟩ := stagingRegion_eq target jobId
  rw [same]
  exact startsWith_append _ _

theorem startsWith_assetStagingRegion (jobId : String) :
    startsWith (assetStagingRegion jobId) stagingRegionPrefix = true := by
  rw [assetStagingRegion, String.append_assoc]
  exact startsWith_append _ _

theorem startsWith_of_validRegionId {regionId : String}
    (valid : validRegionId regionId = true) :
    startsWith regionId stagingRegionPrefix = false := by
  simp only [validRegionId, Bool.or_eq_true, Bool.and_eq_true,
    Bool.not_eq_true', beq_iff_eq] at valid
  rcases valid with rfl | ⟨⟨_, fresh⟩, _⟩
  · decide
  · exact fresh

theorem validRegionId_ne_assets {regionId : String}
    (valid : validRegionId regionId = true) :
    regionId ≠ basemapAssetsRegionId := by
  rintro rfl
  exact absurd valid (by decide)

theorem startsWith_basemapAssets :
    startsWith basemapAssetsRegionId stagingRegionPrefix = false := by
  decide

/-! ## Distinct names -/

theorem warmJobId_inj {bootId other : String} {order next : Nat}
    (lengths : bootId.toList.length = other.toList.length)
    (same : warmJobId bootId order = warmJobId other next) :
    bootId = other ∧ order = next := by
  have chars := congrArg String.toList same
  simp only [warmJobId, String.toList_append, List.append_assoc] at chars
  have tails := List.append_cancel_left chars
  obtain ⟨boots, orders⟩ := List.append_inj tails lengths
  have digits := List.append_cancel_left orders
  rw [Nat.toList_repr, Nat.toList_repr] at digits
  have values := congrArg (fun text => Nat.ofDigitChars 10 text 0) digits
  simp only [Nat.ofDigitChars_ten_toDigits] at values
  exact ⟨String.toList_inj.mp boots, values⟩

/-- The characters behind the common prefix of all staging regions. -/
private theorem staging_suffix {left right : String}
    (same : stagingRegionPrefix ++ left = stagingRegionPrefix ++ right) :
    left.toList = right.toList := by
  have chars := congrArg String.toList same
  simp only [String.toList_append] at chars
  exact List.append_cancel_left chars

private theorem warmJobId_toList (bootId : String) (order : Nat) :
    ∃ rest, (warmJobId bootId order).toList = 'w' :: rest := by
  refine ⟨"arm-".toList ++ (bootId ++ "-" ++ order.repr).toList, ?_⟩
  simp [warmJobId, String.toList_append]

section Names

variable {target other jobId otherJob bootId otherBoot : String}
  {order otherOrder : Nat}

theorem stagingRegion_inj (named : jobId = warmJobId bootId order)
    (otherNamed : otherJob = warmJobId otherBoot otherOrder)
    (same : stagingRegion target jobId = stagingRegion other otherJob) :
    jobId = otherJob := by
  obtain ⟨rest, chars⟩ := warmJobId_toList bootId order
  obtain ⟨otherRest, otherChars⟩ := warmJobId_toList otherBoot otherOrder
  obtain ⟨kind, kinds, left⟩ := stagingRegion_eq target jobId
  obtain ⟨otherKind, otherKinds, right⟩ := stagingRegion_eq other otherJob
  rw [left, right] at same
  have suffixes := staging_suffix same
  simp only [String.toList_append] at suffixes
  rw [← named] at chars
  rw [← otherNamed] at otherChars
  rcases kinds with rfl | rfl <;> rcases otherKinds with rfl | rfl
  · exact String.toList_inj.mp (List.append_cancel_left suffixes)
  · simp [chars] at suffixes
  · simp [otherChars] at suffixes
  · exact String.toList_inj.mp (List.append_cancel_left suffixes)

theorem stagingRegion_ne_assets (named : jobId = warmJobId bootId order) :
    stagingRegion target jobId ≠ assetStagingRegion otherJob := by
  intro same
  obtain ⟨rest, chars⟩ := warmJobId_toList bootId order
  obtain ⟨kind, kinds, left⟩ := stagingRegion_eq target jobId
  rw [left, assetStagingRegion, String.append_assoc] at same
  have suffixes := staging_suffix same
  simp only [String.toList_append] at suffixes
  rw [← named] at chars
  rcases kinds with rfl | rfl <;> simp [chars] at suffixes

end Names

end ChartLocker.Warm
