import ChartLocker.Library.Json
import ChartLocker.Library.Text
import ChartLocker.Warm.Counters

/-!
# Snapshots of a warm

The JSON which the warm routes answer with, and the checks of
`warm-contract.ts` which the plugin makes on it.  Every snapshot of a job
passes them at every moment of a run.
-/

namespace ChartLocker.Warm

open Library Cache Catalog

variable {Document : Type} {env : Environment Document}
  {service : Service Document}

/-! ## Job ids -/

/-- `u8::is_ascii_hexdigit` in lower case. -/
def lowerHexDigit (char : Char) : Bool :=
  char.isDigit || ('a' ≤ char && char ≤ 'f')

def hexDigit (char : Char) : Bool :=
  lowerHexDigit char || ('A' ≤ char && char ≤ 'F')

def u64Max : Nat := 18446744073709551615

/-- `valid_job_id`.  Its lengths are of bytes, which are characters wherever
the digits are accepted. -/
def validJobId (jobId : String) : Bool :=
  match jobId.toList.dropPrefix? "warm-".toList with
  | none => false
  | some rest =>
      match Text.rsplitOnce '-' rest with
      | none => false
      | some (bootId, order) =>
          bootId.length == 32 && bootId.all hexDigit && order != [] &&
            decide (order.length ≤ 20) && order.all Char.isDigit &&
            (Text.parseUnsigned u64Max order).isSome

/-- The digits which `/^warm-[0-9a-f]{32}-([0-9]{1,20})$/` captures. -/
def warmJobIdDigits (text : List Char) : Option (List Char) :=
  (text.dropPrefix? "warm-".toList).bind fun rest =>
    match rest.drop 32 with
    | '-' :: digits =>
        if (rest.take 32).length = 32 ∧ (rest.take 32).all lowerHexDigit ∧
            1 ≤ digits.length ∧ digits.length ≤ 20 ∧
            digits.all Char.isDigit then
          some digits
        else
          none
    | _ => none

/-- The control characters of C0, DEL, C1 and the separators of Unicode. -/
def controlCharacter (char : Char) : Bool :=
  decide (char.toNat ≤ 0x1f) ||
    (decide (0x7f ≤ char.toNat) && decide (char.toNat ≤ 0x9f)) ||
    char.toNat == 0x2028 || char.toNat == 0x2029

def hasControlCharacter (value : String) : Bool :=
  value.toList.any controlCharacter

/-- `validWarmJobId`. -/
def validWarmJobId (value : Option Json) : Bool :=
  match value with
  | some (.string text) =>
      !hasControlCharacter text &&
        (warmJobIdDigits text.toList).any fun digits =>
          decide (Nat.ofDigitChars 10 digits 0 ≤ u64Max)
  | _ => false

section JobIds

variable {bootId : String} {order : Nat}

theorem isDigit_of_mem_digits {char : Char}
    (member : char ∈ Nat.toDigits 10 order) : char.isDigit = true :=
  Nat.isDigit_of_mem_toDigits (by decide) (by decide) member

theorem length_digits (small : order < 2 ^ 64) :
    (Nat.toDigits 10 order).length ≤ 20 := by
  rw [Nat.length_toDigits_le_iff (by decide) (by decide)]
  omega

theorem warmJobId_eq : (warmJobId bootId order).toList =
    "warm-".toList ++ (bootId.toList ++ '-' :: Nat.toDigits 10 order) := by
  simp [warmJobId, String.toList_append, Nat.toList_repr]

theorem dropPrefix_warmJobId :
    (warmJobId bootId order).toList.dropPrefix? "warm-".toList =
      some (bootId.toList ++ '-' :: Nat.toDigits 10 order) := by
  rw [warmJobId_eq, List.dropPrefix?_eq_some_iff]
  exact ⟨_, rfl, beq_self_eq_true _⟩

theorem hyphen_not_digit : '-' ∉ Nat.toDigits 10 order := by
  intro member
  cases isDigit_of_mem_digits member

theorem parseUnsigned_digits (small : order < 2 ^ 64) :
    Text.parseUnsigned u64Max (Nat.toDigits 10 order) = some order := by
  have digits : (Nat.toDigits 10 order).all Char.isDigit = true :=
    List.all_eq_true.mpr fun _ member => isDigit_of_mem_digits member
  have below : order ≤ u64Max := by
    unfold u64Max
    omega
  unfold Text.parseUnsigned
  dsimp only
  split
  · next rest plus =>
    have member : '+' ∈ Nat.toDigits 10 order := by
      rw [plus]
      exact List.mem_cons_self
    cases isDigit_of_mem_digits member
  · rw [if_pos ⟨Nat.toDigits_ne_nil, digits⟩, Nat.ofDigitChars_ten_toDigits,
      if_pos below]

/-- The container accepts the ids which it mints. -/
theorem validJobId_warmJobId (length : bootId.toList.length = 32)
    (hex : bootId.toList.all lowerHexDigit = true) (small : order < 2 ^ 64) :
    validJobId (warmJobId bootId order) = true := by
  have digits : (Nat.toDigits 10 order).all Char.isDigit = true :=
    List.all_eq_true.mpr fun _ member => isDigit_of_mem_digits member
  have upper : bootId.toList.all hexDigit = true := by
    rw [List.all_eq_true] at hex ⊢
    intro char member
    unfold hexDigit
    rw [hex char member]
    rfl
  unfold validJobId
  rw [dropPrefix_warmJobId]
  dsimp only
  rw [Text.rsplitOnce_append hyphen_not_digit]
  dsimp only
  rw [length, upper, digits, parseUnsigned_digits small,
    decide_eq_true (length_digits small),
    bne_iff_ne.mpr Nat.toDigits_ne_nil]
  rfl

theorem not_control_of_printable {char : Char}
    (printable : 0x20 ≤ char.toNat ∧ char.toNat < 0x7f) :
    controlCharacter char = false := by
  unfold controlCharacter
  simp only [Bool.or_eq_false_iff, Bool.and_eq_false_iff,
    decide_eq_false_iff_not, beq_eq_false_iff_ne]
  omega

theorem printable_of_digit {char : Char} (digit : char.isDigit = true) :
    0x20 ≤ char.toNat ∧ char.toNat < 0x7f := by
  have bounds := Char.isDigit_iff_toNat.mp digit
  simp only [Char.reduceToNat] at bounds
  omega

theorem printable_of_hex {char : Char} (hex : lowerHexDigit char = true) :
    0x20 ≤ char.toNat ∧ char.toNat < 0x7f := by
  unfold lowerHexDigit at hex
  rcases Bool.or_eq_true_iff.mp hex with digit | letter
  · exact printable_of_digit digit
  · simp only [Bool.and_eq_true, decide_eq_true_eq] at letter
    have low : 97 ≤ char.toNat := UInt32.le_iff_toNat_le.mp letter.1
    have high : char.toNat ≤ 102 := UInt32.le_iff_toNat_le.mp letter.2
    omega

/-- The plugin accepts the ids which the container mints. -/
theorem validWarmJobId_warmJobId (length : bootId.toList.length = 32)
    (hex : bootId.toList.all lowerHexDigit = true) (small : order < 2 ^ 64) :
    validWarmJobId (some (.string (warmJobId bootId order))) = true := by
  have digits : (Nat.toDigits 10 order).all Char.isDigit = true :=
    List.all_eq_true.mpr fun _ member => isDigit_of_mem_digits member
  have clean : hasControlCharacter (warmJobId bootId order) = false := by
    unfold hasControlCharacter
    rw [List.any_eq_false, warmJobId_eq]
    intro char member
    have printable : 0x20 ≤ char.toNat ∧ char.toNat < 0x7f := by
      rw [List.mem_append, List.mem_append, List.mem_cons] at member
      rcases member with start | boot | rfl | digit
      · have all : "warm-".toList.all (fun char =>
            decide (0x20 ≤ char.toNat ∧ char.toNat < 0x7f)) = true := by
          decide
        exact of_decide_eq_true (List.all_eq_true.mp all char start)
      · exact printable_of_hex (List.all_eq_true.mp hex char boot)
      · decide
      · exact printable_of_digit (isDigit_of_mem_digits digit)
    rw [not_control_of_printable printable]
    exact Bool.false_ne_true
  have captured : warmJobIdDigits (warmJobId bootId order).toList =
      some (Nat.toDigits 10 order) := by
    unfold warmJobIdDigits
    rw [dropPrefix_warmJobId, Option.bind_some,
      List.drop_left' length, List.take_left' length]
    exact if_pos ⟨length, hex, Nat.length_toDigits_pos, length_digits small,
      digits⟩
  have below : order ≤ u64Max := by
    unfold u64Max
    omega
  unfold validWarmJobId
  dsimp only
  rw [clean, captured, Option.any_some, Nat.ofDigitChars_ten_toDigits,
    decide_eq_true below]
  rfl

end JobIds

/-! ## Snapshots -/

def WarmState.text : WarmState → String
  | .running => "running"
  | .done => "done"
  | .cancelled => "cancelled"
  | .capped => "capped"
  | .error => "error"

/-- How an `i64` is written. -/
def jsonI64 (value : Int) : Json :=
  .number (if 0 ≤ value then .unsigned value.toNat else .negative value)

def jsonU64 (value : Nat) : Json :=
  .number (.unsigned value)

namespace WarmJob

variable (job : WarmJob)

/-- The members of a snapshot. -/
def progress : List (String × Json) :=
  [("total", jsonU64 job.total), ("done", jsonU64 job.done),
    ("skipped", jsonU64 job.skipped), ("bytes", jsonI64 job.bytes),
    ("errors", jsonU64 job.errors), ("state", .string job.state.text)]

def snapshot : Json :=
  .object job.progress

def jobSnapshot : Json :=
  .object (("jobId", .string job.jobId) :: job.progress)

end WarmJob

/-- `warm_snapshot`. -/
def warmSnapshot (service : Service Document) (jobId : String) :
    Option Json :=
  (List.range service.warmSeq).findSome? fun order =>
    (service.warmJobs order).bind fun job =>
      if job.jobId = jobId then some job.snapshot else none

/-- A job as it is when a reader holds its lock. -/
structure Read (Document : Type) where
  service : Service Document
  order : Nat
  job : WarmJob

/-- The loop of `warm_snapshot_for_region`, which locks one job after the
other. -/
def newestSnapshot (regionId : String) (reads : List (Read Document)) :
    Option (Nat × Json) :=
  reads.foldl (fun newest read =>
    if read.job.regionId ≠ some regionId then
      newest
    else if newest.all fun found => decide (read.job.order > found.1) then
      some (read.job.order, read.job.jobSnapshot)
    else
      newest) none

def warmSnapshotForRegion (regionId : String)
    (reads : List (Read Document)) : Option Json :=
  (newestSnapshot regionId reads).map Prod.snd

/-! ## The checks of the plugin -/

/-- `Number.MAX_SAFE_INTEGER`. -/
def maxSafeInteger : Nat := 9007199254740991

/-- The number to which `isNonnegativeSafeInteger` narrows a value. -/
def nonnegativeSafeInteger (value : Option Json) : Option Nat :=
  match value with
  | some (.number (.unsigned value)) =>
      if value ≤ maxSafeInteger then some value else none
  | some (.number (.float value)) =>
      if value.den = 1 ∧ 0 ≤ value.num ∧ value.num ≤ maxSafeInteger then
        some value.num.toNat
      else
        none
  | _ => none

def warmStates : List String :=
  ["running", "done", "cancelled", "capped", "error"]

/-- `isWarmSnapshot`; a value which is no object has no members. -/
def isWarmSnapshot (value : Json) : Bool :=
  match value.get "state" with
  | some (.string state) =>
      warmStates.contains state &&
        match nonnegativeSafeInteger (value.get "total"),
          nonnegativeSafeInteger (value.get "done"),
          nonnegativeSafeInteger (value.get "skipped"),
          nonnegativeSafeInteger (value.get "bytes"),
          nonnegativeSafeInteger (value.get "errors") with
        | some total, some done, some skipped, some _, some _ =>
            if done > total ∨ skipped > total ∨ done > total - skipped then
              false
            else
              state != "done" || done == total - skipped
        | _, _, _, _, _ => false
  | _ => false

def isWarmJobSnapshot (value : Json) : Bool :=
  isWarmSnapshot value && validWarmJobId (value.get "jobId")

/-- The counters which a JavaScript number holds exactly. -/
structure WarmJob.Safe (job : WarmJob) : Prop where
  total : job.total < 2 ^ 53
  bytes : job.bytes < 2 ^ 53
  errors : job.errors < 2 ^ 53

section Checks

variable {job : WarmJob}

theorem nonnegativeSafeInteger_jsonU64 {value : Nat}
    (small : value < 2 ^ 53) :
    nonnegativeSafeInteger (some (jsonU64 value)) = some value := by
  have below : value ≤ maxSafeInteger := by
    unfold maxSafeInteger
    omega
  exact if_pos below

theorem nonnegativeSafeInteger_jsonI64 {value : Int} (sign : 0 ≤ value)
    (small : value < 2 ^ 53) :
    nonnegativeSafeInteger (some (jsonI64 value)) = some value.toNat := by
  have below : value.toNat < 2 ^ 53 := by omega
  unfold jsonI64
  rw [if_pos sign]
  exact nonnegativeSafeInteger_jsonU64 below

/-- An object with the counters of a job is a snapshot for the plugin. -/
theorem isWarmSnapshot_of_members {members : List (String × Json)}
    (unique : (members.map Prod.fst).Nodup)
    (counters : ∀ member ∈ job.progress, member ∈ members)
    (counted : job.Counted) (safe : job.Safe) :
    isWarmSnapshot (.object members) = true := by
  have get : ∀ {name : String} {value : Json},
      (name, value) ∈ job.progress →
        Json.get (.object members) name = some value :=
    fun found => Json.get_object unique (counters _ found)
  have state := @get "state" (.string job.state.text)
    (by simp [WarmJob.progress])
  have total := @get "total" (jsonU64 job.total) (by simp [WarmJob.progress])
  have done := @get "done" (jsonU64 job.done) (by simp [WarmJob.progress])
  have skipped := @get "skipped" (jsonU64 job.skipped)
    (by simp [WarmJob.progress])
  have bytes := @get "bytes" (jsonI64 job.bytes) (by simp [WarmJob.progress])
  have errors := @get "errors" (jsonU64 job.errors)
    (by simp [WarmJob.progress])
  have bound := counted.done_add_skipped_le
  have limit := safe.total
  have known : warmStates.contains job.state.text = true := by
    cases job.state <;> decide
  unfold isWarmSnapshot
  rw [state, total, done, skipped, bytes, errors]
  dsimp only
  rw [nonnegativeSafeInteger_jsonU64 limit,
    nonnegativeSafeInteger_jsonU64 (by omega),
    nonnegativeSafeInteger_jsonU64 (by omega),
    nonnegativeSafeInteger_jsonI64 counted.bytes safe.bytes,
    nonnegativeSafeInteger_jsonU64 safe.errors, known, Bool.true_and]
  dsimp only
  rw [if_neg (by omega)]
  by_cases ended : job.state = .done
  · have complete := counted.done_add_skipped ended
    have same : job.done = job.total - job.skipped := by omega
    rw [← same, beq_self_eq_true, Bool.or_true]
  · have other : (job.state.text != "done") = true := by
      cases state : job.state with
      | done => exact absurd state ended
      | _ => decide
    rw [other, Bool.true_or]

theorem isWarmSnapshot_snapshot (counted : job.Counted) (safe : job.Safe) :
    isWarmSnapshot job.snapshot = true := by
  have unique : (job.progress.map Prod.fst).Nodup := by
    simp only [WarmJob.progress, List.map_cons, List.map_nil]
    decide
  exact isWarmSnapshot_of_members unique (fun _ found => found) counted safe

theorem isWarmJobSnapshot_jobSnapshot (counted : job.Counted)
    (safe : job.Safe)
    (valid : validWarmJobId (some (.string job.jobId)) = true) :
    isWarmJobSnapshot job.jobSnapshot = true := by
  have unique : ((("jobId", Json.string job.jobId) :: job.progress).map
      Prod.fst).Nodup := by
    simp only [WarmJob.progress, List.map_cons, List.map_nil]
    decide
  have named : job.jobSnapshot.get "jobId" = some (.string job.jobId) :=
    Json.get_object unique List.mem_cons_self
  unfold isWarmJobSnapshot
  rw [named, valid, Bool.and_true]
  exact isWarmSnapshot_of_members unique
    (fun _ found => List.mem_cons_of_mem _ found) counted safe

theorem warmSnapshot_eq_some {jobId : String} {snapshot : Json}
    (answered : warmSnapshot service jobId = some snapshot) :
    ∃ order job, service.warmJobs order = some job ∧ job.jobId = jobId ∧
      snapshot = job.snapshot := by
  obtain ⟨order, _, found⟩ := List.exists_of_findSome?_eq_some answered
  obtain ⟨job, present, same⟩ := Option.bind_eq_some_iff.mp found
  split at same
  · next named =>
    exact ⟨order, job, present, named, (Option.some.inj same).symm⟩
  · contradiction

/-- The newest snapshot is one of those which were read. -/
theorem warmSnapshotForRegion_eq_some {regionId : String}
    {reads : List (Read Document)} {snapshot : Json}
    (answered : warmSnapshotForRegion regionId reads = some snapshot) :
    ∃ read ∈ reads, snapshot = read.job.jobSnapshot := by
  have newest : ∀ order snapshot,
      newestSnapshot regionId reads = some (order, snapshot) →
        ∃ read ∈ reads, snapshot = read.job.jobSnapshot := by
    clear answered
    unfold newestSnapshot
    induction reads using List.reverseRecOn with
    | nil => intro order snapshot found; cases found
    | append_singleton reads read induction =>
        intro order snapshot found
        have earlier : ∀ order snapshot, _ → ∃ read' ∈ reads ++ [read],
            snapshot = read'.job.jobSnapshot := fun order snapshot before =>
          let ⟨other, member, same⟩ := induction order snapshot before
          ⟨other, List.mem_append_left _ member, same⟩
        rw [List.foldl_append, List.foldl_cons, List.foldl_nil] at found
        split at found
        · exact earlier order snapshot found
        · split at found
          · cases found
            exact ⟨read, by simp, rfl⟩
          · exact earlier order snapshot found
  obtain ⟨⟨order, _⟩, found, rfl⟩ := Option.map_eq_some_iff.mp answered
  exact newest order _ found

end Checks

/-! ## Every snapshot is accepted -/

/-- A boot id is 32 lower case hexadecimal digits. -/
def HexBoot (service : Service Document) : Prop :=
  service.bootId.toList.all lowerHexDigit = true

/-- A read at some moment of a run. -/
structure Read.Taken (env : Environment Document) (read : Read Document) :
    Prop where
  reached : (serviceMachine env).Reachable read.service
  hex : HexBoot read.service
  order : read.order < 2 ^ 64
  found : read.service.warmJobs read.order = some read.job

theorem Read.Taken.valid {read : Read Document} (taken : read.Taken env) :
    validJobId read.job.jobId = true ∧
      validWarmJobId (some (.string read.job.jobId)) = true := by
  have names := (staged_of_reachable taken.reached).named
  rw [(names.order read.order read.job taken.found).2.2]
  exact ⟨validJobId_warmJobId names.bootId taken.hex taken.order,
    validWarmJobId_warmJobId names.bootId taken.hex taken.order⟩

/-- At every moment of every run the counters of a job are sound and its id is
valid, and the snapshots which the routes answer with are accepted. -/
theorem exposed_snapshots_accepted :
    (∀ read : Read Document, read.Taken env →
      0 ≤ read.job.bytes ∧ read.job.done + read.job.skipped ≤ read.job.total ∧
      (read.job.state = .done →
        read.job.done + read.job.skipped = read.job.total) ∧
      validJobId read.job.jobId = true ∧
      validWarmJobId (some (.string read.job.jobId)) = true) ∧
    (∀ (service : Service Document) jobId snapshot,
      (serviceMachine env).Reachable service →
      warmSnapshot service jobId = some snapshot →
      (∀ order job, service.warmJobs order = some job →
        job.jobId = jobId → job.Safe) →
      isWarmSnapshot snapshot = true) ∧
    ∀ regionId (reads : List (Read Document)) snapshot,
      (∀ read ∈ reads, read.Taken env ∧ read.job.Safe) →
      warmSnapshotForRegion regionId reads = some snapshot →
      isWarmJobSnapshot snapshot = true := by
  refine ⟨?_, ?_, ?_⟩
  · intro read taken
    have counted := counted_of_reachable taken.reached taken.found
    exact ⟨counted.bytes, counted.done_add_skipped_le,
      counted.done_add_skipped, taken.valid⟩
  · intro service jobId snapshot reached answered safe
    obtain ⟨order, job, found, named, rfl⟩ := warmSnapshot_eq_some answered
    exact isWarmSnapshot_snapshot (counted_of_reachable reached found)
      (safe order job found named)
  · intro regionId reads snapshot taken answered
    obtain ⟨read, member, rfl⟩ := warmSnapshotForRegion_eq_some answered
    obtain ⟨taken, safe⟩ := taken read member
    exact isWarmJobSnapshot_jobSnapshot
      (counted_of_reachable taken.reached taken.found) safe taken.valid.2

theorem exposed_snapshots_accepted_harbourWarm :
    ∃ finish job, (serviceMachine sampleDeployment).exec sampleService
        harbourWarm = some finish ∧
      finish.warmJobs 0 = some job ∧ job.done + job.skipped = job.total ∧
      (warmSnapshot finish job.jobId).all isWarmSnapshot = true ∧
      (warmSnapshotForRegion "harbour" [⟨finish, 0, job⟩]).all
        isWarmJobSnapshot = true := by
  have ran : ((serviceMachine sampleDeployment).exec sampleService
      harbourWarm).bind (fun finish => (finish.warmJobs 0).map fun job =>
        (finish.warmSeq, finish.bootId, job.state, job.total, job.bytes,
          job.errors)) =
      some (1, sampleBootId, .done, 4, 6, 0) := by
    decide +kernel
  obtain ⟨finish, run, later⟩ := Option.bind_eq_some_iff.mp ran
  obtain ⟨job, found, facts⟩ := Option.map_eq_some_iff.mp later
  simp only [Prod.mk.injEq] at facts
  obtain ⟨jobs, boot, done, total, bytes, errors⟩ := facts
  have reached : (serviceMachine sampleDeployment).Reachable finish :=
    ⟨sampleService, harbourWarm, sampleService_initial, run⟩
  have taken : Read.Taken sampleDeployment ⟨finish, 0, job⟩ := by
    refine ⟨reached, ?_, Nat.two_pow_pos 64, found⟩
    unfold HexBoot
    rw [boot]
    decide
  have safe : job.Safe := ⟨by omega, by omega, by omega⟩
  have only : ∀ order other, finish.warmJobs order = some other →
      other = job := by
    intro order other present
    have below := ((staged_of_reachable reached).named.order order other
      present).1
    obtain rfl : order = 0 := by omega
    exact Option.some.inj (present.symm.trans found)
  have accepted := @exposed_snapshots_accepted Nat sampleDeployment
  refine ⟨finish, job, run, found, (accepted.1 _ taken).2.2.1 done, ?_, ?_⟩
  · rw [Option.all_eq_true]
    exact fun snapshot answered => accepted.2.1 finish _ snapshot reached
      answered fun order other present _ => only order other present ▸ safe
  · rw [Option.all_eq_true]
    refine fun snapshot answered => accepted.2.2 "harbour" _ snapshot
      (fun read member => ?_) answered
    obtain rfl := List.mem_singleton.mp member
    exact ⟨taken, safe⟩

end ChartLocker.Warm
