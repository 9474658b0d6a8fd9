import ChartLocker.Library.Machine

/-!
# The control token

`getOrCreateControlToken` keeps one token for all processes over a directory.
A process creates the token under a lock file.  The lock of a dead process is
removed by a recovery, which is elected by a hard link from a sidecar of its
own to a fixed path.

One label is one file operation of a process, a crash or the passing of time.
A lease file is a position in the list of all files ever created; an inode may
be used again once no path names its file.  All lease paths name regular
files, and a process id names one process.
-/

namespace ChartLocker.Plugin

open Library

/-! ## Lease files -/

def lockTimeoutMs : Nat := 5000

def lockStaleMs : Nat := 2000

def maxRecoveryOwnerFiles : Nat := 128

/-- A lock or sidecar file: the process which has created it, and whether it
has written its id into it. -/
structure LeaseFile where
  owner : Nat
  written : Bool
  modified : Nat
  inode : Nat
deriving DecidableEq, Repr

/-- The paths of leases.  A sidecar has a path of its own. -/
inductive LeasePath where
  | lock
  | recovery
  | owner (file : Nat)
deriving DecidableEq, Repr

/-- The file operations of `inspectLease`.  `read` is when the file was read,
which is some time before the clock is. -/
inductive Probe where
  | opening
  | stating (file : Nat)
  | reading (file modified : Nat)
  | judging (file modified : Nat) (pid : Option Nat) (read : Nat)
deriving DecidableEq, Repr

inductive LeaseState where
  | missing
  | active
  | abandoned (file : Nat)
deriving DecidableEq, Repr

/-- The file operations of `unlinkOwnedPath`. -/
inductive Removal where
  | checking
  | unlinking
deriving DecidableEq, Repr

/-! ## Processes -/

/-- The sidecars which a scan has yet to inspect, in any order. -/
structure Entries where
  remaining : List Nat
  budget : Nat
  active : Bool
deriving DecidableEq, Repr

/-- Where a process is in `recoveryInProgress`. -/
inductive Scan where
  | listing
  | choosing (entries : Entries)
  | probing (owner : Nat) (probe : Probe) (entries : Entries)
  | reapingFixed (owner file : Nat) (stage : Removal) (entries : Entries)
  | reapingOwner (owner file : Nat) (stage : Removal) (entries : Entries)
  | probingFixed (probe : Probe)
  | reapingOrphan (file : Nat) (stage : Removal)
deriving DecidableEq, Repr

inductive ScanPurpose where
  | entering
  | confirming (lock : Nat)
deriving DecidableEq, Repr

variable (Token : Type)

/-- The section in which a token is created.  Whatever is at the path besides
a valid token is set aside by a rename to a `.corrupt` path. -/
inductive CriticalStep where
  | reading
  | statting
  | settingAside
  | creating
  | linking (token : Token)
deriving DecidableEq, Repr

/-- Where a process is in `getOrCreateControlToken`. -/
inductive TokenPhase where
  | idle
  | reading
  | scanning (purpose : ScanPurpose) (scan : Scan)
  | acquiring
  | publishing (lock : Nat)
  | withdrawing (lock : Nat) (stage : Removal) (throws : Bool)
  | creatingOwner
  | writingOwner (owner : Nat)
  | electing (owner : Nat)
  | inspecting (owner : Nat) (probe : Probe)
  | removing (owner file : Nat) (stage : Removal)
  | unelecting (owner : Nat) (stage : Removal)
  | retiring (owner : Nat) (stage : Removal)
  | critical (lock : Nat) (step : CriticalStep Token)
  | releasing (lock : Nat) (result : Option Token) (stage : Removal)
deriving DecidableEq, Repr

structure TokenProcess where
  phase : TokenPhase Token
  deadline : Nat
deriving DecidableEq, Repr

/-- What `readExistingToken` makes of the file at the path of the token. -/
inductive TokenEntry where
  | invalid
  | valid (token : Token)
deriving DecidableEq, Repr

structure TokenDirectory where
  now : Nat
  alive : Nat → Bool
  processes : Nat → TokenProcess Token
  files : List LeaseFile
  lock : Option Nat
  recovery : Option Nat
  owners : List Nat
  token : Option (TokenEntry Token)
  /-- What has been renamed to a `.corrupt` path. -/
  renamed : List (TokenEntry Token)
  returned : List Token

/-- `choice` is the sidecar which a scan inspects next, or the inode of a file
which is created. -/
inductive TokenLabel where
  | call (pid : Nat)
  | advance (pid choice : Nat)
  | generate (pid : Nat) (token : Token)
  | fail (pid : Nat)
  | crash (pid : Nat)
  | pass (ms : Nat)
deriving DecidableEq, Repr

variable {Token}

namespace TokenDirectory

variable (state : TokenDirectory Token)

/-! ## File operations -/

def entry : LeasePath → Option Nat
  | .lock => state.lock
  | .recovery => state.recovery
  | .owner file => if file ∈ state.owners then some file else none

def unlink : LeasePath → TokenDirectory Token
  | .lock => { state with lock := none }
  | .recovery => { state with recovery := none }
  | .owner file => { state with owners := state.owners.erase file }

def inode (file : Nat) : Option Nat :=
  state.files[file]?.map LeaseFile.inode

def sameIdentity (left right : Nat) : Bool :=
  state.inode left == state.inode right

/-- The files which some path names. -/
def linked : List Nat :=
  state.lock.toList ++ state.recovery.toList ++ state.owners

/-- `openSync(path, 'wx')` creates an empty file. -/
def create (pid inode : Nat) : Option (TokenDirectory Token) :=
  if state.linked.any fun file => state.inode file == some inode then
    none
  else
    some { state with files := state.files ++ [⟨pid, false, state.now, inode⟩] }

def write (file : Nat) : TokenDirectory Token :=
  { state with
    files := state.files.modify file fun lease =>
      { lease with written := true, modified := state.now } }

/-- `ownerState` and the comparison with `LOCK_STALE_MS`. -/
def judge (file modified : Nat) : Option Nat → LeaseState
  | some pid => if state.alive pid then .active else .abandoned file
  | none =>
      if lockStaleMs ≤ state.now - modified then .abandoned file else .active

/-- The next operation of `inspectLease`. -/
def inspectLease (path : LeasePath) : Probe → Probe ⊕ LeaseState
  | .opening =>
      match state.entry path with
      | some file => .inl (.stating file)
      | none => .inr .missing
  | .stating file =>
      .inl (.reading file
        (state.files[file]?.elim state.now LeaseFile.modified))
  | .reading file modified =>
      .inl (.judging file modified
        ((state.files[file]?.filter LeaseFile.written).map LeaseFile.owner)
        state.now)
  | .judging file modified pid _ => .inr (state.judge file modified pid)

/-- The next operation of `unlinkOwnedPath`, and whether another follows. -/
def unlinkOwnedPath (path : LeasePath) (identity : Nat) :
    Removal → TokenDirectory Token × Bool
  | .checking =>
      (state, (state.entry path).any fun file =>
        state.sameIdentity identity file)
  | .unlinking => (state.unlink path, false)

/-! ## The processes -/

def setProcess (pid : Nat) (process : TokenProcess Token) :
    TokenDirectory Token :=
  { state with processes := Function.update state.processes pid process }

def toPhase (pid : Nat) (phase : TokenPhase Token) : TokenDirectory Token :=
  state.setProcess pid { state.processes pid with phase := phase }

/-- The call returns a token, or throws. -/
def finish (pid : Nat) (result : Option Token) : TokenDirectory Token :=
  { state with returned := state.returned ++ result.toList }.toPhase pid .idle

/-- Wait and try again, up to the deadline. -/
def retry (pid : Nat) : TokenDirectory Token :=
  if (state.processes pid).deadline ≤ state.now then state.finish pid none
  else state.toPhase pid (.scanning .entering .listing)

/-- Go on with the result of `recoveryInProgress`. -/
def scanned (pid : Nat) (busy : Bool) : ScanPurpose → TokenDirectory Token
  | .entering => if busy then state.retry pid else state.toPhase pid .acquiring
  | .confirming lock =>
      state.toPhase pid (if busy then .withdrawing lock .checking false
        else .critical lock .reading)

/-- A step of `recoveryInProgress`. -/
def scan (pid choice : Nat) (purpose : ScanPurpose) :
    Scan → Option (TokenDirectory Token)
  | .listing =>
      some (state.toPhase pid (.scanning purpose (.choosing
        ⟨state.owners, maxRecoveryOwnerFiles,
          decide (state.owners.length > maxRecoveryOwnerFiles)⟩)))
  | .choosing entries =>
      if entries.budget = 0 ∨ entries.remaining = [] then
        if entries.active then some (state.scanned pid true purpose)
        else some (state.toPhase pid
          (.scanning purpose (.probingFixed .opening)))
      else
        entries.remaining[choice]?.map fun owner =>
          state.toPhase pid (.scanning purpose (.probing owner .opening
            { entries with
              remaining := entries.remaining.eraseIdx choice
              budget := entries.budget - 1 }))
  | .probing owner probe entries =>
      some (match state.inspectLease (.owner owner) probe with
        | .inl next =>
            state.toPhase pid (.scanning purpose (.probing owner next entries))
        | .inr .missing =>
            state.toPhase pid (.scanning purpose (.choosing entries))
        | .inr .active =>
            state.toPhase pid (.scanning purpose (.choosing
              { entries with active := true }))
        | .inr (.abandoned file) =>
            state.toPhase pid (.scanning purpose
              (.reapingFixed owner file .checking entries)))
  | .reapingFixed owner file stage entries =>
      let removed := state.unlinkOwnedPath .recovery file stage
      some (removed.1.toPhase pid (.scanning purpose
        (if removed.2 then .reapingFixed owner file .unlinking entries
        else .reapingOwner owner file .checking entries)))
  | .reapingOwner owner file stage entries =>
      let removed := state.unlinkOwnedPath (.owner owner) file stage
      some (removed.1.toPhase pid (.scanning purpose
        (if removed.2 then .reapingOwner owner file .unlinking entries
        else .choosing entries)))
  | .probingFixed probe =>
      some (match state.inspectLease .recovery probe with
        | .inl next =>
            state.toPhase pid (.scanning purpose (.probingFixed next))
        | .inr .missing => state.scanned pid false purpose
        | .inr .active => state.scanned pid true purpose
        | .inr (.abandoned file) =>
            state.toPhase pid (.scanning purpose
              (.reapingOrphan file .checking)))
  | .reapingOrphan file stage =>
      let removed := state.unlinkOwnedPath .recovery file stage
      some (if removed.2 then
          removed.1.toPhase pid (.scanning purpose
            (.reapingOrphan file .unlinking))
        else removed.1.scanned pid false purpose)

/-- A step inside the section. -/
def criticalStep (pid lock : Nat) :
    CriticalStep Token → Option (TokenDirectory Token)
  | .reading =>
      some (state.toPhase pid (match state.token with
        | some (.valid winner) => .releasing lock (some winner) .checking
        | _ => .critical lock .statting))
  | .statting =>
      some (state.toPhase pid (.critical lock
        (if state.token.isSome then .settingAside else .creating)))
  | .settingAside =>
      some ({ state with
        token := none
        renamed := state.renamed ++ state.token.toList
        : TokenDirectory Token }.toPhase pid (.critical lock .creating))
  | .creating => none
  | .linking token =>
      match state.token with
      | none =>
          some ({ state with token := some (.valid token)
            : TokenDirectory Token }.toPhase pid
              (.releasing lock (some token) .checking))
      | some _ => some (state.toPhase pid (.releasing lock none .checking))

/-- The next operation of a process. -/
def advance (pid choice : Nat) : Option (TokenDirectory Token) :=
  match (state.processes pid).phase with
  | .idle => none
  | .reading =>
      match state.token with
      | some (.valid existing) => some (state.finish pid (some existing))
      | _ =>
          some (state.setProcess pid
            ⟨.scanning .entering .listing, state.now + lockTimeoutMs⟩)
  | .scanning purpose scan => state.scan pid choice purpose scan
  | .acquiring =>
      match state.lock with
      | some _ => some (state.toPhase pid .creatingOwner)
      | none =>
          (state.create pid choice).map fun created =>
            { created with lock := some state.files.length
              : TokenDirectory Token }.toPhase pid
                (.publishing state.files.length)
  | .publishing lock =>
      some ((state.write lock).toPhase pid
        (.scanning (.confirming lock) .listing))
  | .withdrawing lock stage throws =>
      let removed := state.unlinkOwnedPath .lock lock stage
      some (if removed.2 then
          removed.1.toPhase pid (.withdrawing lock .unlinking throws)
        else if throws then removed.1.finish pid none
        else removed.1.retry pid)
  | .creatingOwner =>
      (state.create pid choice).map fun created =>
        { created with owners := state.owners ++ [state.files.length]
          : TokenDirectory Token }.toPhase pid
            (.writingOwner state.files.length)
  | .writingOwner owner =>
      some ((state.write owner).toPhase pid (.electing owner))
  | .electing owner =>
      match state.recovery with
      | none =>
          some ({ state with recovery := some owner
            : TokenDirectory Token }.toPhase pid (.inspecting owner .opening))
      | some _ => some (state.toPhase pid (.retiring owner .checking))
  | .inspecting owner probe =>
      some (match state.inspectLease .lock probe with
        | .inl next => state.toPhase pid (.inspecting owner next)
        | .inr (.abandoned file) =>
            state.toPhase pid (.removing owner file .checking)
        | .inr _ => state.toPhase pid (.unelecting owner .checking))
  | .removing owner file stage =>
      let removed := state.unlinkOwnedPath .lock file stage
      some (removed.1.toPhase pid
        (if removed.2 then .removing owner file .unlinking
        else .unelecting owner .checking))
  | .unelecting owner stage =>
      let removed := state.unlinkOwnedPath .recovery owner stage
      some (removed.1.toPhase pid
        (if removed.2 then .unelecting owner .unlinking
        else .retiring owner .checking))
  | .retiring owner stage =>
      let removed := state.unlinkOwnedPath (.owner owner) owner stage
      some (if removed.2 then
          removed.1.toPhase pid (.retiring owner .unlinking)
        else removed.1.retry pid)
  | .critical lock step => state.criticalStep pid lock step
  | .releasing lock result stage =>
      let removed := state.unlinkOwnedPath .lock lock stage
      some (if removed.2 then
          removed.1.toPhase pid (.releasing lock result .unlinking)
        else removed.1.finish pid result)

/-- `createToken` has drawn a token and staged it under a name of its own. -/
def generate (pid : Nat) (token : Token) : Option (TokenDirectory Token) :=
  match (state.processes pid).phase with
  | .critical lock .creating =>
      some (state.toPhase pid (.critical lock (.linking token)))
  | _ => none

/-- A file operation throws where the process holds a lock. -/
def fail (pid : Nat) : Option (TokenDirectory Token) :=
  match (state.processes pid).phase with
  | .publishing lock | .scanning (.confirming lock) _ =>
      some (state.toPhase pid (.withdrawing lock .checking true))
  | .critical lock _ =>
      some (state.toPhase pid (.releasing lock none .checking))
  | _ => none

def call (pid : Nat) : Option (TokenDirectory Token) :=
  match (state.processes pid).phase with
  | .idle => some (state.toPhase pid .reading)
  | _ => none

/-- A process which has crashed does nothing any more. -/
def living (pid : Nat) (next : Option (TokenDirectory Token)) :
    Option (TokenDirectory Token) :=
  if state.alive pid then next else none

def step : TokenLabel Token → Option (TokenDirectory Token)
  | .call pid => state.living pid (state.call pid)
  | .advance pid choice => state.living pid (state.advance pid choice)
  | .generate pid token => state.living pid (state.generate pid token)
  | .fail pid => state.living pid (state.fail pid)
  | .crash pid =>
      some { state with alive := Function.update state.alive pid false }
  | .pass ms => some { state with now := state.now + ms }

/-- A directory without leases, over which no process runs. -/
def Untouched : Prop :=
  (∀ pid, (state.processes pid).phase = .idle) ∧ state.files = [] ∧
    state.lock = none ∧ state.recovery = none ∧ state.owners = [] ∧
    state.renamed = [] ∧ state.returned = []

end TokenDirectory

def tokenMachine : Machine (TokenDirectory Token) (TokenLabel Token) where
  initial := TokenDirectory.Untouched
  step := TokenDirectory.step

end ChartLocker.Plugin
