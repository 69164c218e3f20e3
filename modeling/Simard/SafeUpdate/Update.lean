import Simard.SafeUpdate.Snapshot

/-! The update of the installed binary: drain, snapshot, pre-test of the candidate, swap
and handover; and what the daemon does with the drain flag when it boots. -/
namespace Simard.SafeUpdate
open Simard.Library Action

structure DrainOutcome where
  inFlightAtStart : Nat
  inFlightAtEnd : Nat
  requeued : Nat
  deriving DecidableEq

/-- Dispatch is closed first; then engineers get some time to finish, and whatever is
still running when it is over does not stop the update. -/
def drainToQuiescence (faults : Faults) (paths : Paths) (inFlight : Nat × Nat) :
    HostAction DrainOutcome := do
  markDraining faults paths
  return ⟨inFlight.1, inFlight.2, 0⟩

structure PretestOutcome where
  passed : Bool
  exitCode : Option Int
  detail : String
  deriving DecidableEq

/-- The candidate's own self-test: it may not start, run out of time, or end. -/
inductive SelfTest where
  | notSpawned (reason : String)
  | waitFailed (reason : String)
  | timedOut
  | ended (exitCode : Option Int) (detail : String)
  deriving DecidableEq

def runPretest (faults : Faults) (paths : Paths) (timeoutSeconds : Nat) (test : SelfTest) :
    HostAction PretestOutcome := do
  io faults .pretestMkdir fun e =>
    .pretestSpawn paths.stateDir ("mkdir " ++ paths.stateDir ++ ": " ++ e)
  check (match test with
    | .notSpawned reason => .error (.pretestSpawn paths.newBin reason)
    | .waitFailed reason => .error (.pretestSpawn paths.newBin ("wait failed: " ++ reason))
    | .timedOut => .error (.pretestTimeout timeoutSeconds)
    | .ended exitCode detail => .ok ⟨exitCode = some 0, exitCode, detail⟩)

def setExecutable (faults : Faults) (paths : Paths) : HostAction Unit := do
  io faults .swapStat fun e => .swapFailed ("stat " ++ paths.installPath ++ ": " ++ e)
  io faults .swapChmod fun e => .swapFailed ("chmod " ++ paths.installPath ++ ": " ++ e)

/-- A candidate is renamed into place or, where that fails, copied beside it and the copy
renamed. The result says whether the first way worked. -/
def atomicInstall (faults : Faults) (paths : Paths) (candidate : Option Image) :
    HostAction Bool := do
  let bytes ← check (match candidate with
    | some bytes => .ok bytes
    | none => .error (.swapFailed ("candidate binary missing: " ++ paths.newBin)))
  io faults .swapMkdir fun e => .swapFailed ("mkdir " ++ paths.installDir ++ ": " ++ e)
  match faults .swapRename with
  | none =>
      modify fun host => { host with installed := bytes }
      setExecutable faults paths
      return true
  | some _ =>
      let sibling := paths.installDir ++ "/.simard.swap-" ++ toString paths.pid
      io faults .swapCopy fun e =>
        .swapFailed ("copy fallback " ++ paths.newBin ++ " -> " ++ sibling ++ ": " ++ e)
      io faults .swapRenameCopy fun e =>
        .swapFailed ("rename " ++ sibling ++ " -> " ++ paths.installPath ++ ": " ++ e)
      modify fun host => { host with installed := bytes }
      setExecutable faults paths
      return false

theorem atomicInstall_keeps {γ : Type} {part : Host → γ} {faults : Faults} {paths : Paths}
    (h : ∀ host bytes, part { host with installed := bytes } = part host)
    (candidate : Option Image) : Keeps part (atomicInstall faults paths candidate) := by
  refine .bind (.check _) fun bytes => .bind keeps_io fun _ => ?_
  have hinstall (renamed : Bool) : Keeps part (do
      modify fun host => { host with installed := bytes }
      setExecutable faults paths
      return renamed) :=
    .bind (.modifies fun host => h host _) fun _ => .bind (.bind keeps_io fun _ => keeps_io)
      fun _ => .pure _
  split
  · exact hinstall true
  · exact .bind keeps_io fun _ => .bind keeps_io fun _ => hinstall false

structure UpdateConfig where
  paths : Paths
  pretestTimeoutSeconds : Nat
  validateTimeoutCycles : UInt32
  validateTimeoutSeconds : Nat
  preUpgradeItemCount : Option Nat

def homePaths : Paths where
  stateDir := ".simard/state"
  binDir := ".simard/bin"
  installPath := ".simard/bin/simard"
  installDir := ".simard/bin"
  newBin := ".simard/bin/simard.candidate"
  pid := 1

def defaultConfig : UpdateConfig where
  paths := homePaths
  pretestTimeoutSeconds := 300
  validateTimeoutCycles := 5
  validateTimeoutSeconds := 600
  preUpgradeItemCount := none

/-- Install, note the handover, and hand over; a handover that succeeds runs the new
image and does not come back. -/
def doSwap (faults : Faults) (config : UpdateConfig) (candidate : Option Image)
    (handover : Option String) (snapshot : BinarySnapshot) (now : Int) : HostAction Bool := do
  let renamed ← atomicInstall faults config.paths candidate
  let newVersion := readEmbeddedVersion (← get).installed
  let status := (UpgradeStatus.execHandover now (some newVersion) (some snapshot.version)
    config.validateTimeoutCycles.toNat config.validateTimeoutSeconds).withPreUpgradeItemCount
      config.preUpgradeItemCount
  writeStatus faults config.paths status
  check (match handover with
    | none => .ok ()
    | some reason => .error (.swapHandoverFailed reason))
  modify fun host => { host with running := host.installed }
  return renamed

theorem status_doSwap {faults : Faults} {config : UpdateConfig} {candidate : Option Image}
    {handover : Option String} {snapshot : BinarySnapshot} {now : Int} {host host' : Host}
    {renamed : Bool}
    (h : call (doSwap faults config candidate handover snapshot now) host = (.ok renamed, host')) :
    ∃ version, host'.status = some (.ok ((UpgradeStatus.execHandover now (some version)
      (some snapshot.version) config.validateTimeoutCycles.toNat
      config.validateTimeoutSeconds).withPreUpgradeItemCount config.preUpgradeItemCount)) := by
  unfold doSwap at h
  obtain ⟨_, installed, -, h⟩ := call_bind_ok.mp h
  rw [call_get_bind] at h
  obtain ⟨_, written, hwritten, h⟩ := call_bind_ok.mp h
  refine ⟨readEmbeddedVersion installed.installed, ?_⟩
  rcases call_writeStatus faults config.paths _ installed with ⟨e, hfailed⟩ | hdone
  · rw [hfailed] at hwritten
    cases hwritten
  · rw [hdone] at hwritten
    cases hwritten
    cases handover with
    | none =>
      cases h
      rfl
    | some reason => cases h

/-- What an update meets: the faults, the candidate, how its self-test goes, whether the
handover fails, the engineers in flight, and the time, as a second and as a name. -/
structure Attempt where
  faults : Faults
  candidate : Option Image
  test : SelfTest
  handover : Option String
  inFlight : Nat × Nat
  now : Int
  stamp : String

structure UpdateOutcome where
  drain : DrainOutcome
  snapshot : BinarySnapshot
  pretest : PretestOutcome
  atomicRenameUsed : Bool
  deriving DecidableEq

def afterDrain (config : UpdateConfig) (attempt : Attempt) (drain : DrainOutcome) :
    HostAction UpdateOutcome := do
  let snapshot ← takeSnapshot attempt.faults config.paths attempt.stamp
  let pretest ← runPretest attempt.faults config.paths config.pretestTimeoutSeconds attempt.test
  if !pretest.passed then
    let _ ← Action.attempt (writeStatus attempt.faults config.paths
      (.pretestFailed attempt.now pretest.exitCode pretest.detail))
    check (.error (.pretestSelfTestFailed pretest.exitCode pretest.detail))
  let renamed ← doSwap attempt.faults config attempt.candidate attempt.handover snapshot attempt.now
  return ⟨drain, snapshot, pretest, renamed⟩

def run (config : UpdateConfig) (attempt : Attempt) : HostAction UpdateOutcome := do
  let drain ← drainToQuiescence attempt.faults config.paths attempt.inFlight
  afterDrain config attempt drain

/-- No upgrade in flight accounts for the flag; when the status cannot be read there may
be one. -/
def shouldClear : Except SafeUpdateError (Option UpgradeStatus) → Bool
  | .ok none => true
  | .ok (some status) => status.phase ≠ .execHandover
  | .error _ => false

def clearStaleDrainingFlagAtBoot (faults : Faults) (paths : Paths) : HostAction Unit := do
  let status ← Action.attempt (readStatus faults paths)
  let host ← get
  if shouldClear status && host.draining then
    let _ ← Action.attempt (unmarkDraining faults paths)

end Simard.SafeUpdate
