import Simard.Library.Program
import Simard.TypedOoda.Handler

/-! The programs that run against the handler: the outbox worker, which leases
effects and has them executed, and the execution of a process. Every reading of
the surroundings and every handler call is one command, so other programs may run
between any two of them. -/
namespace Simard.TypedOoda
open Simard.Library

inductive CycleErrorCode where
  | missingTerminal
  | multipleTerminalAttempts
  | toolFailed
  | recipeFailed
  | downstreamFailed
  | persistenceFailed
  deriving DecidableEq

structure CycleError where
  code : CycleErrorCode
  message : String
  deriving DecidableEq

structure EffectExecutionError where
  message : String
  permanent : Bool
  deriving DecidableEq

structure CapturedProcessOutput where
  success : Bool
  exitCode : Option Int
  stdout : List UInt8
  stderr : List UInt8

inductive Cmd where
  | call (policy : CapabilityPolicy) (operation : Call)
  | captureProcessOutput (request : ProcessExecRequest)
  | execute (job : EffectJob)
  | observeOnlyEnabled
  | newUuid
  | systemTimeNow

def Cmd.Answer : Cmd → Type
  | .call _ operation => CapabilityResult operation.Result
  | .captureProcessOutput _ => Except String CapturedProcessOutput
  | .execute _ => Except EffectExecutionError EffectResult
  | .observeOnlyEnabled => Bool
  | .newUuid => String
  | .systemTimeNow => SystemTime

abbrev Act := Program Cmd Cmd.Answer

namespace Act

def call (policy : CapabilityPolicy) (operation : Call) :
    Act (CapabilityResult operation.Result) :=
  Program.perform (Cmd.call policy operation)

def captureProcessOutput (request : ProcessExecRequest) :
    Act (Except String CapturedProcessOutput) :=
  Program.perform (Cmd.captureProcessOutput request)

def execute (job : EffectJob) : Act (Except EffectExecutionError EffectResult) :=
  Program.perform (Cmd.execute job)

def observeOnlyEnabled : Act Bool := Program.perform Cmd.observeOnlyEnabled

def newUuid : Act String := Program.perform Cmd.newUuid

def systemTimeNow : Act SystemTime := Program.perform Cmd.systemTimeNow

end Act

def settleProcess (policy : CapabilityPolicy) (record : ProcessExecutionRecord) :
    Act (CapabilityResult ProcessExecutionRecord) := do
  match ← Act.call policy (.updateProcessExecution record .running) with
  | .error error => pure (.error error)
  | .ok _ => pure (.ok record)

def capturedRecord (record : ProcessExecutionRecord) :
    Except String CapturedProcessOutput → ProcessExecutionRecord
  | .ok captured => { record with
      status := if captured.success then .completed else .failed
      exitCode := captured.exitCode
      stdout := captured.stdout
      stderr := captured.stderr }
  | .error error => { record with status := .failed, stderr := utf8 error.toList }

def executeProcess (policy : CapabilityPolicy) (actor : AuthenticatedToolContext)
    (request : ProcessExecRequest) : Act (CapabilityResult ProcessExecutionRecord) := do
  match ← Act.call policy (.reserveProcessExecution actor request) with
  | .error error => pure (.error error)
  | .ok (record, false) => pure (.ok record)
  | .ok (record, true) =>
      let running := { record with status := .running }
      match ← Act.call policy (.updateProcessExecution running .reserved) with
      | .error error => pure (.error error)
      | .ok _ =>
          let captured ← Act.captureProcessOutput request
          settleProcess policy (capturedRecord running captured)

structure OutboxWorker where
  policy : CapabilityPolicy
  workerId : String
  lease : Duration

def effectMutationRequestId (job : EffectJob) (operation : String) : String :=
  job.effectId ++ ":" ++ toString job.leaseGeneration ++ ":" ++ operation

def orPersistenceFailed (result : CapabilityResult α) (next : α → Act (Except CycleError β)) :
    Act (Except CycleError β) :=
  match result with
  | .ok value => next value
  | .error error => pure (.error ⟨.persistenceFailed, error.message⟩)

def downstreamFailed (message : String) : Except CycleError α :=
  .error ⟨.downstreamFailed, message⟩

/-- Why an effect may not run now, and how it is said. -/
structure Denial where
  operation : String
  reason : String
  report : String
  deriving DecidableEq

def observeOnlyDenial : Denial where
  operation := "observe-only-block"
  reason := "SIMARD_OBSERVE_ONLY denied mutation at effect dispatch"
  report := "effect is blocked by SIMARD_OBSERVE_ONLY"

def approvalDenial : Denial where
  operation := "approval-block"
  reason := "server-issued privileged approval is required"
  report := "privileged effect is blocked pending a server-issued approval"

namespace OutboxWorker

def recoverStartup (worker : OutboxWorker) : Act (Except CycleError Nat) := do
  let id ← Act.newUuid
  let now ← Act.systemTimeNow
  let recovered ← Act.call worker.policy
    (.recoverExpiredEffects (worker.workerId ++ ":recover:" ++ id) now)
  orPersistenceFailed recovered fun count => pure (.ok count)

def denyEffect (worker : OutboxWorker) (job : EffectJob) (denial : Denial) :
    Act (Except CycleError Unit) := do
  let blocked ← Act.call worker.policy (.blockEffectAuthorization job
    (effectMutationRequestId job denial.operation) denial.reason)
  orPersistenceFailed blocked fun _ => pure (downstreamFailed denial.report)

/-- Pass an effect on unless observe-only mode or a missing approval denies it. -/
def authorizeEffect (worker : OutboxWorker) (job : EffectJob)
    (next : Act (Except CycleError Unit)) : Act (Except CycleError Unit) := do
  if ← Act.observeOnlyEnabled then
    worker.denyEffect job observeOnlyDenial
  else if job.action.privileged && job.approval.isNone then
    worker.denyEffect job approvalDenial
  else next

/-- Store the outcome of an execution under the lease it ran with. -/
def finish (worker : OutboxWorker) (job : EffectJob) (operation : String) (result : EffectResult)
    (next : Act (Except CycleError Unit)) : Act (Except CycleError Unit) := do
  let now ← Act.systemTimeNow
  let finished ← Act.call worker.policy
    (.finishEffect job (effectMutationRequestId job operation) now result)
  orPersistenceFailed finished fun _ => next

def retry (worker : OutboxWorker) (job : EffectJob) (error : String) :
    Act (Except CycleError Unit) := do
  let now ← Act.systemTimeNow
  let released ← Act.call worker.policy
    (.releaseEffectForRetry job (effectMutationRequestId job "retry") now error)
  orPersistenceFailed released fun _ =>
    pure (downstreamFailed ("retryable downstream effect failure: " ++ error))

def executeClaimed (worker : OutboxWorker) (job : EffectJob) : Act (Except CycleError Unit) :=
  worker.authorizeEffect job do
    match ← Act.execute job with
    | .ok result =>
        worker.finish job "complete" result do
          match result with
          | .succeeded _ => pure (.ok ())
          | .failed error => pure (downstreamFailed error)
    | .error error =>
        if error.permanent then
          worker.finish job "failed" (.failed error.message)
            (pure (downstreamFailed ("permanent downstream effect failure: " ++ error.message)))
        else worker.retry job error.message

def claimRequestId (worker : OutboxWorker) (id : String) : String :=
  worker.workerId ++ ":claim:" ++ id

def drainLoop (worker : OutboxWorker) : Nat → Nat → Act (Except CycleError Nat)
  | 0, completed => pure (.ok completed)
  | remaining + 1, completed => do
      let id ← Act.newUuid
      let now ← Act.systemTimeNow
      let claimed ← Act.call worker.policy
        (.claimNextEffect worker.workerId (worker.claimRequestId id) now worker.lease)
      orPersistenceFailed claimed fun
        | none => pure (.ok completed)
        | some job => do
            match ← worker.executeClaimed job with
            | .error error => pure (.error error)
            | .ok () => worker.drainLoop remaining (completed + 1)

def drainPending (worker : OutboxWorker) (limit : Nat) : Act (Except CycleError Nat) := do
  match ← worker.recoverStartup with
  | .error error => pure (.error error)
  | .ok _ => worker.drainLoop limit 0

def settledDispatch (current : EffectJob) : Except CycleError Unit :=
  if current.state = .succeeded then .ok ()
  else if current.state = .failed then
    downstreamFailed (current.error.getD "downstream effect permanently failed")
  else if current.state = .blocked then
    downstreamFailed (current.error.getD "downstream effect is blocked")
  else if current.state = .running then
    downstreamFailed "downstream effect is leased by another worker"
  else if current.state = .indeterminate then
    downstreamFailed "downstream effect execution is indeterminate and will not be repeated"
  else .error ⟨.persistenceFailed, "unknown durable effect state " ++ quoted current.state.asStr⟩

def claimAndExecute (worker : OutboxWorker) (outcome : TerminalOutcome) :
    Act (Except CycleError Unit) := do
  let id ← Act.newUuid
  let now ← Act.systemTimeNow
  let claimed ← Act.call worker.policy (.claimEffectForOutcome outcome.outcomeId worker.workerId
    (worker.claimRequestId id) now worker.lease)
  orPersistenceFailed claimed fun
    | none => pure (downstreamFailed "action terminal has no pending effect")
    | some job => worker.executeClaimed job

def dispatchOutcome (worker : OutboxWorker) (outcome : TerminalOutcome) :
    Act (Except CycleError Unit) := do
  match ← worker.recoverStartup with
  | .error error => pure (.error error)
  | .ok _ =>
      let current ← Act.call worker.policy (.effectForOutcome outcome.outcomeId)
      orPersistenceFailed current fun
        | none => pure (downstreamFailed "action terminal has no durable effect")
        | some current =>
            if current.state = .pending then
              worker.authorizeEffect current (worker.claimAndExecute outcome)
            else pure (settledDispatch current)

end OutboxWorker

end Simard.TypedOoda
