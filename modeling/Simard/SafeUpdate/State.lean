import Simard.Library.Action
import Simard.Library.BTreeMap
import Simard.Library.Sha256

/-! What a self-update of the daemon works on: the installed binary and its backups, the
image the daemon runs, and the files in the state directory that carry an upgrade from
one process to the next. Every file operation may fail. -/
namespace Simard.SafeUpdate
open Simard.Library Action

abbrev Image := List UInt8

inductive SafeUpdateError where
  | drainIo (action path reason : String)
  | snapshotIo (action path reason : String)
  | pretestSpawn (path reason : String)
  | pretestSelfTestFailed (code : Option Int) (detail : String)
  | pretestTimeout (seconds : Nat)
  | swapFailed (reason : String)
  | swapHandoverFailed (reason : String)
  | validateReadFailed (reason : String)
  | validateWriteFailed (reason : String)
  | validateMalformed (reason : String)
  | rollbackBackupMissing (path reason : String)
  | rollbackBackupCorrupt
  | rollbackRestoreFailed (path reason : String)
  | buildFailed (detail : String)
  | gateFailed (gate detail : String)
  | backupFailed (which detail : String)
  | orphanReapTimeout (pid : Int)
  | healthCheckFailed (report : String)
  | rolledBack (reason : String)
  | rollbackFailed (detail : String)
  | sourceResolveFailed (detail : String)
  | fetchFailed (detail : String)
  | checkoutFailed (detail : String)
  deriving DecidableEq

def SafeUpdateError.display : SafeUpdateError → String
  | .drainIo action path reason => "drain phase i/o: " ++ action ++ " on " ++ path ++ ": " ++ reason
  | .snapshotIo action path reason =>
      "snapshot phase i/o: " ++ action ++ " on " ++ path ++ ": " ++ reason
  | .pretestSpawn path reason => "pre-test phase: failed to spawn " ++ path ++ ": " ++ reason
  | .pretestSelfTestFailed code detail =>
      let shown := match code with
        | some n => "Some(" ++ toString n ++ ")"
        | none => "None"
      "pre-test phase: self-test exited non-zero (" ++ shown ++ "): " ++ detail
  | .pretestTimeout seconds =>
      "pre-test phase: self-test timed out after " ++ toString seconds ++ "s"
  | .swapFailed reason =>
      "swap phase: rename failed (and copy fallback also failed): " ++ reason
  | .swapHandoverFailed reason => "swap phase: handover/exec failed: " ++ reason
  | .validateReadFailed reason => "validate phase: cannot read upgrade-status.json: " ++ reason
  | .validateWriteFailed reason => "validate phase: cannot write upgrade-status.json: " ++ reason
  | .validateMalformed reason => "validate phase: malformed upgrade-status.json: " ++ reason
  | .rollbackBackupMissing path reason =>
      "rollback phase: backup file is missing or unreadable at " ++ path ++ ": " ++ reason
  | .rollbackBackupCorrupt =>
      "rollback phase: backup integrity check failed (sha256 mismatch); refusing to restore"
  | .rollbackRestoreFailed path reason =>
      "rollback phase: failed to restore install path " ++ path ++ ": " ++ reason
  | .buildFailed detail => "self-deploy: candidate build failed: " ++ detail
  | .gateFailed gate detail => "self-deploy: gate '" ++ gate ++ "' failed: " ++ detail
  | .backupFailed which detail =>
      "self-deploy: protective " ++ which ++ " backup failed (no swap performed): " ++ detail
  | .orphanReapTimeout pid =>
      "self-deploy: engineer orphan pid " ++ toString pid ++
        " survived SIGTERM+SIGKILL within the grace window"
  | .healthCheckFailed report => "self-deploy: post-deploy health check failed: " ++ report
  | .rolledBack reason =>
      "self-deploy: rolled back to the previous binary after a failed health check: " ++ reason
  | .rollbackFailed detail => "self-deploy: ROLLBACK FAILED — critical operator alert: " ++ detail
  | .sourceResolveFailed detail =>
      "self-deploy: cannot resolve the source repo to build from (no cwd-HEAD fallback): " ++ detail
  | .fetchFailed detail =>
      "self-deploy: git fetch of the source repo failed (no cwd-HEAD fallback): " ++ detail
  | .checkoutFailed detail =>
      "self-deploy: checkout of the target merged commit failed (no cwd-HEAD fallback): " ++ detail

inductive UpgradePhase where
  | inProgress
  | pretestFailed
  | execHandover
  | validated
  | validateTimeout
  | rolledBack
  deriving DecidableEq

structure UpgradeStatus where
  phase : UpgradePhase
  startedAt : Int
  newVersion : Option String
  previousVersion : Option String
  reason : Option String
  validateRequiredCycles : Option Nat
  validateCyclesSeen : Nat
  validateBudgetSeconds : Option Nat
  preUpgradeItemCount : Option Nat
  deriving DecidableEq

namespace UpgradeStatus

def execHandover (now : Int) (newVersion previousVersion : Option String)
    (requiredCycles budgetSeconds : Nat) : UpgradeStatus where
  phase := .execHandover
  startedAt := now
  newVersion := newVersion
  previousVersion := previousVersion
  reason := none
  validateRequiredCycles := some requiredCycles
  validateCyclesSeen := 0
  validateBudgetSeconds := some budgetSeconds
  preUpgradeItemCount := none

def withPreUpgradeItemCount (status : UpgradeStatus) (count : Option Nat) : UpgradeStatus :=
  { status with preUpgradeItemCount := count }

def pretestFailed (now : Int) (code : Option Int) (detail : String) : UpgradeStatus where
  phase := .pretestFailed
  startedAt := now
  newVersion := none
  previousVersion := none
  reason := some ("self-test exited " ++ (code.map toString).getD "?" ++ ": " ++ detail)
  validateRequiredCycles := none
  validateCyclesSeen := 0
  validateBudgetSeconds := none
  preUpgradeItemCount := none

def rolledBack (now : Int) (reason : String) (restoredVersion : Option String) :
    UpgradeStatus where
  phase := .rolledBack
  startedAt := now
  newVersion := restoredVersion
  previousVersion := none
  reason := some reason
  validateRequiredCycles := none
  validateCyclesSeen := 0
  validateBudgetSeconds := none
  preUpgradeItemCount := none

end UpgradeStatus

/-- What `last-binary.json` says of the binary that was backed up last. -/
structure BinarySnapshot where
  sha256 : String
  version : String
  backupPath : String
  deriving DecidableEq

/-- Backups by what follows `simard.bak.` in their names. A file that is there but cannot
be parsed is kept as the complaint about it. -/
structure Host where
  installed : Image
  running : Image
  backups : BTreeMap String Image
  manifest : Option (Except String BinarySnapshot)
  status : Option (Except String UpgradeStatus)
  draining : Bool

def phase (host : Host) : Option UpgradePhase :=
  match host.status with
  | some (.ok status) => some status.phase
  | _ => none

def Host.fresh (image : Image) : Host where
  installed := image
  running := image
  backups := .empty
  manifest := none
  status := none
  draining := false

/-- Where the files are; temporary ones carry the process id. -/
structure Paths where
  stateDir : String
  binDir : String
  installPath : String
  installDir : String
  newBin : String
  pid : Nat

def Paths.statusPath (paths : Paths) : String := paths.stateDir ++ "/upgrade-status.json"

def Paths.manifestPath (paths : Paths) : String := paths.stateDir ++ "/last-binary.json"

def Paths.drainingFlagPath (paths : Paths) : String := paths.stateDir ++ "/draining.flag"

def Paths.backupPath (paths : Paths) (stamp : String) : String :=
  paths.binDir ++ "/simard.bak." ++ stamp

abbrev HostAction := Action Host SafeUpdateError

/-- The file operations, each under the place that asks for it. -/
inductive Io where
  | drainMkdir | drainWrite | drainRemove
  | statusRead | statusMkdir | statusWrite | statusRename
  | currentExe | binaryRead | backupMkdir | backupWrite | backupStat | backupChmod
  | manifestMkdir | manifestWrite | backupsList | backupPrune
  | pretestMkdir
  | swapMkdir | swapRename | swapCopy | swapRenameCopy | swapStat | swapChmod
  | rollbackList | rollbackRead | manifestRead | rollbackMkdir | rollbackWrite | rollbackRename
  | rollbackStat | rollbackChmod | manifestReread
  | heartbeatWrite
  deriving DecidableEq

abbrev Faults := Io → Option String

def noFaults : Faults := fun _ => none

def io (faults : Faults) (step : Io) (error : String → SafeUpdateError) : HostAction Unit :=
  check (match faults step with
    | none => .ok ()
    | some reason => .error (error reason))

theorem keeps_io {γ : Type} {part : Host → γ} {faults : Faults} {step : Io}
    {error : String → SafeUpdateError} : Keeps part (io faults step error) := .check _

theorem io_bind_ok {α : Type} {faults : Faults} {step : Io} {error : String → SafeUpdateError}
    {next : Unit → HostAction α} {host host' : Host} {a : α} :
    call (io faults step error >>= next) host = (.ok a, host') ↔
      faults step = none ∧ call (next ()) host = (.ok a, host') := by
  unfold io
  cases faults step with
  | none => simp
  | some reason => simp

@[simp] theorem call_io_noFaults {α : Type} (step : Io) (error : String → SafeUpdateError)
    (next : Unit → HostAction α) (host : Host) :
    call (io noFaults step error >>= next) host = call (next ()) host := rfl

def isDraining (host : Host) : Bool := host.draining

def markDraining (faults : Faults) (paths : Paths) : HostAction Unit := do
  io faults .drainMkdir (.drainIo "create state_dir" paths.stateDir)
  io faults .drainWrite (.drainIo "write" paths.drainingFlagPath)
  modify fun host => { host with draining := true }

def unmarkDraining (faults : Faults) (paths : Paths) : HostAction Unit := do
  let host ← get
  if host.draining then
    io faults .drainRemove (.drainIo "remove" paths.drainingFlagPath)
    set { host with draining := false }

def readStatus (faults : Faults) (paths : Paths) : HostAction (Option UpgradeStatus) := do
  match (← get).status with
  | none => return none
  | some content =>
      io faults .statusRead fun e =>
        .validateReadFailed ("read " ++ paths.statusPath ++ ": " ++ e)
      check (match content with
        | .ok status => .ok (some status)
        | .error e => .error (.validateMalformed (paths.statusPath ++ ": " ++ e)))

def writeStatus (faults : Faults) (paths : Paths) (status : UpgradeStatus) : HostAction Unit := do
  let tmp := paths.stateDir ++ "/upgrade-status.json.tmp"
  io faults .statusMkdir fun e => .validateWriteFailed ("mkdir " ++ paths.stateDir ++ ": " ++ e)
  io faults .statusWrite fun e => .validateWriteFailed ("write " ++ tmp ++ ": " ++ e)
  io faults .statusRename fun e =>
    .validateWriteFailed ("rename " ++ tmp ++ " -> " ++ paths.statusPath ++ ": " ++ e)
  modify fun host => { host with status := some (.ok status) }

theorem unmarkDraining_keeps {γ : Type} {part : Host → γ} {faults : Faults} {paths : Paths}
    (h : ∀ host, part { host with draining := false } = part host) :
    Keeps part (unmarkDraining faults paths) := by
  intro host
  unfold unmarkDraining io
  rw [call_get_bind]
  split
  · cases faults .drainRemove with
    | none => exact h host
    | some reason => rfl
  · rfl

theorem writeStatus_keeps {γ : Type} {part : Host → γ} {faults : Faults} {paths : Paths}
    (h : ∀ host status, part { host with status := status } = part host)
    (status : UpgradeStatus) : Keeps part (writeStatus faults paths status) := by
  refine .bind keeps_io fun _ => .bind keeps_io fun _ => .bind keeps_io fun _ => ?_
  exact .modifies fun host => h host _

theorem call_writeStatus (faults : Faults) (paths : Paths) (status : UpgradeStatus) (host : Host) :
    (∃ e, call (writeStatus faults paths status) host = (.error e, host)) ∨
      call (writeStatus faults paths status) host =
        (.ok (), { host with status := some (.ok status) }) := by
  unfold writeStatus io
  cases faults .statusMkdir with
  | some reason => exact .inl ⟨_, rfl⟩
  | none =>
    cases faults .statusWrite with
    | some reason => exact .inl ⟨_, rfl⟩
    | none =>
      cases faults .statusRename with
      | some reason => exact .inl ⟨_, rfl⟩
      | none => exact .inr rfl

@[simp] theorem call_writeStatus_noFaults {α : Type} (paths : Paths) (status : UpgradeStatus)
    (next : Unit → HostAction α) (host : Host) :
    call (writeStatus noFaults paths status >>= next) host =
      call (next ()) { host with status := some (.ok status) } := rfl

theorem call_readStatus_noFaults {α : Type} {paths : Paths} {status : UpgradeStatus}
    {next : Option UpgradeStatus → HostAction α} {host : Host}
    (h : host.status = some (.ok status)) :
    call (readStatus noFaults paths >>= next) host = call (next (some status)) host := by
  rw [call_bind]
  unfold readStatus
  rw [call_get_bind, h]
  rfl

def isVersionChar (b : UInt8) : Bool :=
  let c := Char.ofNat b.toNat
  b < 128 && (c.isAlphanum || c = '.' || c = '-')

def afterText (needle : Image) : Image → Option Image
  | [] => if needle = [] then some [] else none
  | b :: rest =>
      if needle.isPrefixOf (b :: rest) then some ((b :: rest).drop needle.length)
      else afterText needle rest

def cargoPkgVersion : String := "0.42.0"

/-- The version a binary prints, unless what looks like one runs to its end. -/
def readEmbeddedVersion (bytes : Image) : String :=
  match afterText (utf8 "simard ".toList) bytes with
  | some tail =>
      let version := tail.takeWhile isVersionChar
      if version.length < tail.length ∧ 5 ≤ version.length then
        String.ofList (version.map fun b => Char.ofNat b.toNat)
      else cargoPkgVersion
  | none => cargoPkgVersion

end Simard.SafeUpdate
