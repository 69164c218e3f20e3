import Simard.SafeUpdate.Update

/-! Validation of an upgrade by the incoming binary, which counts its own clean cycles
against a budget of time, and the watchdog that rolls a failed one back. -/
namespace Simard.SafeUpdate
open Simard.Library Action

inductive ValidateMode where
  | notRequired
  | inProgress (cyclesRemaining : Nat)
  | validated
  | timeout
  | rolledBack
  | pretestFailed
  deriving DecidableEq

def UpgradeStatus.requiredCycles (status : UpgradeStatus) : Nat :=
  status.validateRequiredCycles.getD 5

def UpgradeStatus.mode (status : UpgradeStatus) : ValidateMode :=
  match status.phase with
  | .execHandover =>
      if status.requiredCycles ≤ status.validateCyclesSeen then .validated
      else .inProgress (status.requiredCycles - status.validateCyclesSeen)
  | .validated => .validated
  | .validateTimeout => .timeout
  | .rolledBack => .rolledBack
  | .pretestFailed => .pretestFailed
  | .inProgress => .notRequired

def enterValidationIfNeeded (faults : Faults) (paths : Paths) : HostAction ValidateMode := do
  match ← readStatus faults paths with
  | none => return .notRequired
  | some status => return status.mode

inductive ParityVerdict where
  | ok
  | shortfall (pre post : Nat)
  deriving DecidableEq

/-- Fewer items than before the upgrade, where both counts are known. -/
def memoryParityVerdict : (pre current : Option Nat) → ParityVerdict
  | some pre, some post => if 0 < pre ∧ post < pre then .shortfall pre post else .ok
  | _, _ => .ok

def defaultValidateTimeout : Nat := 600

def asI64 (n : Nat) : Int := Int.bmod n (2 ^ 64)

def u32Max : Nat := 2 ^ 32 - 1

def UpgradeStatus.budget (status : UpgradeStatus) : Int :=
  asI64 (status.validateBudgetSeconds.getD defaultValidateTimeout)

def UpgradeStatus.timedOut (status : UpgradeStatus) (reason : String) : UpgradeStatus :=
  { status with phase := .validateTimeout, reason := some reason }

/-- One clean cycle. Time is checked first, so that a late cycle does not count; the last
one that is needed counts only if the memory has lost nothing. -/
def recordCycleWithParity (faults : Faults) (paths : Paths) (now : Int)
    (currentItemCount : Option Nat) : HostAction ValidateMode := do
  match ← readStatus faults paths with
  | none => return .notRequired
  | some status =>
      if status.phase ≠ .execHandover then enterValidationIfNeeded faults paths
      else
        let elapsed := now - status.startedAt
        if status.budget - elapsed ≤ 0 then
          writeStatus faults paths (status.timedOut ("validate_timeout: " ++ toString elapsed ++
            "s elapsed > " ++ toString status.budget ++ "s budget"))
          return .timeout
        else
          let seen := min (status.validateCyclesSeen + 1) u32Max
          let status := { status with validateCyclesSeen := seen }
          io faults .heartbeatWrite fun e => .validateWriteFailed
            ("write " ++ paths.stateDir ++ "/upgrade-heartbeat.json: " ++ e)
          if status.requiredCycles ≤ seen then
            match memoryParityVerdict status.preUpgradeItemCount currentItemCount with
            | .shortfall pre post =>
                writeStatus faults paths (status.timedOut
                  ("memory item-count parity FAILED after " ++ toString seen ++
                    " clean cycles: pre-upgrade " ++ toString pre ++ ", post-upgrade " ++
                    toString post ++
                    " (#107 silent empty-read signature) — refusing to validate, rolling back"))
                return .timeout
            | .ok =>
                writeStatus faults paths
                  { status with
                    phase := .validated
                    reason := some (toString seen ++ " clean cycles within " ++
                      toString elapsed ++ "s") }
                unmarkDraining faults paths
                return .validated
          else
            writeStatus faults paths status
            return .inProgress (status.requiredCycles - seen)

def recordCycle (faults : Faults) (paths : Paths) (now : Int) : HostAction ValidateMode :=
  recordCycleWithParity faults paths now none

def watchdogPoll (faults : Faults) (paths : Paths) (restart : Option (Option String)) (now : Int) :
    HostAction (Option (Except SafeUpdateError RollbackOutcome)) := do
  match ← Action.attempt (enterValidationIfNeeded faults paths) with
  | .ok .timeout =>
      return some (← Action.attempt
        (doRollback faults paths "watchdog observed validate_timeout" restart now))
  | _ => return none

end Simard.SafeUpdate
