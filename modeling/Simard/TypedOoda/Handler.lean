import Simard.TypedOoda.Processes
import Simard.TypedOoda.Sessions

/-! The capability handler as one function of a call: each call is a single
transaction on the ledger, and a call that fails leaves the ledger as it was. -/
namespace Simard.TypedOoda
open Simard.Library

inductive Call where
  | registerActorSession (actor : AuthenticatedToolContext) (requestId cycleId goalId : String)
      (ttl : Duration)
  | authenticateActorSession (token sessionId cycleId goalId : String)
  | purgeActorSessions
  | releaseEngineerClaim (claimKey : String)
  | issuePrivilegedApproval (authority : ApprovalAuthority) (requestId effectId : String)
  | recordAction (actor : AuthenticatedToolContext) (request : RecordActionRequest)
      (admission : AdmissionSnapshot)
  | recordNoAction (actor : AuthenticatedToolContext) (request : RecordNoActionRequest)
  | recordBlocked (actor : AuthenticatedToolContext) (request : RecordBlockedRequest)
  | recordCompleted (actor : AuthenticatedToolContext) (request : RecordCompletedRequest)
  | recordProgress (actor : AuthenticatedToolContext) (request : RecordProgressRequest)
  | effectForOutcome (outcomeId : String)
  | claimNextEffect (worker requestId : String) (now : SystemTime) (lease : Duration)
  | claimEffectForOutcome (outcomeId worker requestId : String) (now : SystemTime)
      (lease : Duration)
  | recoverExpiredEffects (requestId : String) (now : SystemTime)
  | renewEffect (lease : EffectJob) (requestId : String) (now : SystemTime) (extension : Duration)
  | blockEffectAuthorization (job : EffectJob) (requestId reason : String)
  | releaseEffectForRetry (lease : EffectJob) (requestId : String) (now : SystemTime)
      (error : String)
  | finishEffect (lease : EffectJob) (requestId : String) (now : SystemTime)
      (result : EffectResult)
  | reserveProcessExecution (actor : AuthenticatedToolContext) (request : ProcessExecRequest)
  | updateProcessExecution (record : ProcessExecutionRecord) (expected : ProcessExecutionStatus)

namespace Call

@[reducible] def Result : Call → Type
  | registerActorSession .. => ActorSessionLease
  | authenticateActorSession .. => AuthenticatedToolContext
  | purgeActorSessions => Unit
  | releaseEngineerClaim _ => Unit
  | issuePrivilegedApproval .. => PrivilegedApproval
  | recordAction .. => TerminalOutcome
  | recordNoAction .. => TerminalOutcome
  | recordBlocked .. => TerminalOutcome
  | recordCompleted .. => TerminalOutcome
  | recordProgress .. => ProgressRecord
  | effectForOutcome _ => Option EffectJob
  | claimNextEffect .. => Option EffectJob
  | claimEffectForOutcome .. => Option EffectJob
  | recoverExpiredEffects .. => Nat
  | renewEffect .. => Unit
  | blockEffectAuthorization .. => Unit
  | releaseEffectForRetry .. => Unit
  | finishEffect .. => Unit
  | reserveProcessExecution .. => ProcessExecutionRecord × Bool
  | updateProcessExecution .. => Unit

/-- The two halves of `execute_process` are private to the handler. -/
def isPublic : Call → Bool
  | reserveProcessExecution .. => false
  | updateProcessExecution .. => false
  | _ => true

end Call

def reading (ledger : Ledger) (result : CapabilityResult α) : CapabilityResult (α × Ledger) :=
  result.map fun value => (value, ledger)

def perform (policy : CapabilityPolicy) (env : Ambient) (ledger : Ledger) :
    (call : Call) → CapabilityResult (call.Result × Ledger)
  | .registerActorSession actor requestId cycleId goalId ttl =>
      registerActorSession policy env actor requestId cycleId goalId ttl ledger
  | .authenticateActorSession token sessionId cycleId goalId =>
      reading ledger (authenticateActorSession env token sessionId cycleId goalId ledger)
  | .purgeActorSessions => purgeActorSessions ledger
  | .releaseEngineerClaim claimKey => releaseEngineerClaim claimKey ledger
  | .issuePrivilegedApproval authority requestId effectId =>
      issuePrivilegedApproval policy env authority requestId effectId ledger
  | .recordAction actor request admission => recordAction policy env actor request admission ledger
  | .recordNoAction actor request => recordNoAction policy env actor request ledger
  | .recordBlocked actor request => recordBlocked policy env actor request ledger
  | .recordCompleted actor request => recordCompleted policy env actor request ledger
  | .recordProgress actor request => recordProgress policy env actor request ledger
  | .effectForOutcome outcomeId => reading ledger (effectForOutcome outcomeId ledger)
  | .claimNextEffect worker requestId now lease =>
      claimNextEffect policy worker requestId now lease ledger
  | .claimEffectForOutcome outcomeId worker requestId now lease =>
      claimEffectForOutcome policy outcomeId worker requestId now lease ledger
  | .recoverExpiredEffects requestId now => recoverExpiredEffects policy requestId now ledger
  | .renewEffect lease requestId now extension =>
      renewEffect policy lease requestId now extension ledger
  | .blockEffectAuthorization job requestId reason =>
      blockEffectAuthorization policy env job requestId reason ledger
  | .releaseEffectForRetry lease requestId now error =>
      releaseEffectForRetry policy lease requestId now error ledger
  | .finishEffect lease requestId now result =>
      finishEffect policy lease requestId now result ledger
  | .reserveProcessExecution actor request =>
      reserveProcessExecution policy env actor request ledger
  | .updateProcessExecution record expected => updateProcessExecution record expected ledger

/-- The ledger a call leaves: its transaction committed, or nothing changed. -/
def commit (policy : CapabilityPolicy) (env : Ambient) (ledger : Ledger) (call : Call) : Ledger :=
  match perform policy env ledger call with
  | .ok (_, after) => after
  | .error _ => ledger

/-- The registry entry a call asks for, once its arguments have passed the checks
made before the transaction. Calls without a request id have none. -/
def Call.ticket (policy : CapabilityPolicy) (env : Ambient) :
    Call → Option (CapabilityResult Ticket)
  | .registerActorSession actor requestId cycleId goalId ttl =>
      some ((registerPlan policy actor requestId cycleId goalId ttl).map (·.ticket))
  | .issuePrivilegedApproval authority requestId effectId =>
      some (approvalPlan policy authority requestId effectId)
  | .recordAction actor request _ =>
      some ((recordActionPlan policy env.observeOnlyEnabled actor request).map (·.ticket))
  | .recordNoAction actor request => some (recordNoActionPlan policy actor request)
  | .recordBlocked actor request => some (recordBlockedPlan policy actor request)
  | .recordCompleted actor request => some (recordCompletedPlan policy actor request)
  | .recordProgress actor request => some (recordProgressPlan policy actor request)
  | .claimNextEffect worker requestId now lease =>
      some ((claimNextPlan policy worker requestId now lease).map (·.1))
  | .claimEffectForOutcome outcomeId worker requestId now lease =>
      some ((claimForOutcomePlan policy outcomeId worker requestId now lease).map (·.1))
  | .recoverExpiredEffects requestId now => some ((recoverPlan policy requestId now).map (·.1))
  | .renewEffect lease requestId now extension =>
      some ((renewPlan policy lease requestId now extension).map (·.1.ticket))
  | .blockEffectAuthorization job requestId reason =>
      some (blockPlan policy job requestId reason)
  | .releaseEffectForRetry lease requestId now error =>
      some ((retryPlan policy lease requestId now error).map (·.ticket))
  | .finishEffect lease requestId now result =>
      some ((finishPlan policy lease requestId now result).map (·.ticket))
  | .reserveProcessExecution actor request => some (processExecPlan policy env actor request)
  | .authenticateActorSession .. => none
  | .purgeActorSessions => none
  | .releaseEngineerClaim _ => none
  | .effectForOutcome _ => none
  | .updateProcessExecution .. => none

/-- The call's request id is unrecorded, so that its transaction is carried out
and not answered from the registry. -/
def Call.isFresh (policy : CapabilityPolicy) (env : Ambient) (ledger : Ledger)
    (call : Call) : Bool :=
  match call.ticket policy env with
  | some (.ok ticket) => (ledger.request ticket.requestId).isNone
  | _ => true

end Simard.TypedOoda
