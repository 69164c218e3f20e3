import Simard.Library.Json
import Simard.Library.Store
import Simard.TypedOoda.Types

/-! The ledger's tables and the statements that write them. A row is kept in
insertion order, and every insertion checks the primary keys, the unique columns
and the foreign keys its table declares. -/
namespace Simard.TypedOoda
open Simard.Library

inductive MutationType where
  | terminal
  | progress
  | processExec
  | actorSession
  | privilegedApproval
  | effectClaim
  | effectRecovery
  | effectRenew
  | effectAuthorizationBlock
  | effectRetry
  | effectFinish
  deriving DecidableEq

/-- A durable effect state is a plain text; the ledger writes only the six named
below, a decoded snapshot may carry any. -/
structure EffectState where
  asStr : String
  deriving DecidableEq

namespace EffectState
def pending : EffectState := ⟨"pending"⟩

def running : EffectState := ⟨"running"⟩

def blocked : EffectState := ⟨"blocked"⟩

def succeeded : EffectState := ⟨"succeeded"⟩

def failed : EffectState := ⟨"failed"⟩

def indeterminate : EffectState := ⟨"indeterminate"⟩

def settled (state : EffectState) : Bool :=
  state = succeeded || state = failed || state = indeterminate

end EffectState

structure TerminalRow where
  requestId : String
  requestHash : String
  sessionId : String
  cycleId : String
  outcomeId : String
  outcomeJson : Json
  deriving DecidableEq

structure ProgressRow where
  requestId : String
  requestHash : String
  sessionId : String
  cycleId : String
  progressJson : Json
  deriving DecidableEq

structure MutationRow where
  requestId : String
  mutationType : MutationType
  requestHash : String
  resultJson : Json
  requestFormatVersion : Nat
  resultFormatVersion : Nat
  deriving DecidableEq

structure EffectRow where
  effectId : String
  outcomeId : String
  requestId : String
  kind : String
  state : EffectState
  actionJson : Json
  attempt : Nat
  leaseGeneration : Nat
  leaseOwner : Option String
  leaseExpiresAt : Option Int
  error : Option String
  resultJson : Option Json
  deriving DecidableEq

structure ClaimRow where
  claimKey : String
  outcomeId : String
  requestId : String
  deriving DecidableEq

structure SessionRow where
  sessionId : String
  cycleId : String
  goalId : String
  actorIdentity : String
  repositoryJson : Json
  grantsJson : Json
  engineerPermissionsJson : Json
  workingDirectoryJson : Option Json
  observeOnly : Bool
  tokenHash : String
  expiresAt : Int
  deriving DecidableEq

structure ProcessRow where
  executionId : String
  requestId : String
  requestHash : String
  sessionId : String
  cycleId : String
  goalId : String
  status : ProcessExecutionStatus
  requestJson : Json
  resultJson : Json
  deriving DecidableEq

/-- The scope a mutation counter belongs to. -/
structure Scope where
  sessionId : String
  cycleId : String
  goalId : String
  deriving DecidableEq

structure CounterRow where
  scope : Scope
  mutationType : MutationType
  spent : Nat
  deriving DecidableEq

inductive Decision where
  | approved
  | blocked
  deriving DecidableEq

structure DecisionRow where
  decisionId : String
  effectId : String
  decision : Decision
  decisionJson : Json
  recordedAt : Int
  deriving DecidableEq

@[ext] structure Ledger where
  terminalOutcomes : List TerminalRow
  progressRecords : List ProgressRow
  mutationRequests : List MutationRow
  effectJobs : List EffectRow
  engineerClaims : List ClaimRow
  actorSessions : List SessionRow
  processExecutions : List ProcessRow
  mutationScopeCounters : List CounterRow
  authorizationDecisions : List DecisionRow
  deriving DecidableEq

namespace Ledger

def empty : Ledger := ⟨[], [], [], [], [], [], [], [], []⟩

def request (ledger : Ledger) (requestId : String) : Option MutationRow :=
  Table.lookup MutationRow.requestId requestId ledger.mutationRequests

def effect (ledger : Ledger) (effectId : String) : Option EffectRow :=
  Table.lookup EffectRow.effectId effectId ledger.effectJobs

def terminal (ledger : Ledger) (outcomeId : String) : Option TerminalRow :=
  Table.lookup TerminalRow.outcomeId outcomeId ledger.terminalOutcomes

def session (ledger : Ledger) (sessionId : String) : Option SessionRow :=
  Table.lookup SessionRow.sessionId sessionId ledger.actorSessions

end Ledger

inductive SqlError where
  | constraint (detail : String)
  | queryReturnedNoRows
  | outOfRange
  deriving DecidableEq

def SqlError.message : SqlError → String
  | .constraint detail => detail
  | .queryReturnedNoRows => "Query returned no rows"
  | .outOfRange => "out of range integral type conversion attempted"

def isConstraint : SqlError → Bool
  | .constraint _ => true
  | _ => false

def persistence (error : SqlError) : CapabilityError :=
  ⟨.persistenceFailed, "typed outcome persistence failed: " ++ error.message⟩

def serialization (detail : String) : CapabilityError :=
  ⟨.persistenceFailed, "typed record serialization failed: " ++ detail⟩

/-- A statement's failure is reported as a persistence error. -/
def persist (result : Except SqlError α) : CapabilityResult α :=
  result.mapError persistence

/-- An integer parameter has to fit a signed 64-bit column. -/
def sqlInteger (n : Nat) : Except SqlError Nat :=
  if n < 2 ^ 63 then .ok n else .error .outOfRange

namespace Ledger

def insertTerminal (ledger : Ledger) (row : TerminalRow) : Except SqlError Ledger :=
  if ledger.terminalOutcomes.any (·.requestId = row.requestId) then
    .error (.constraint "UNIQUE constraint failed: terminal_outcomes.request_id")
  else if ledger.terminalOutcomes.any (·.outcomeId = row.outcomeId) then
    .error (.constraint "UNIQUE constraint failed: terminal_outcomes.outcome_id")
  else if ledger.terminalOutcomes.any
      (fun old => old.sessionId = row.sessionId && old.cycleId = row.cycleId) then
    .error (.constraint
      "UNIQUE constraint failed: terminal_outcomes.session_id, terminal_outcomes.cycle_id")
  else .ok { ledger with terminalOutcomes := ledger.terminalOutcomes ++ [row] }

def insertProgress (ledger : Ledger) (row : ProgressRow) : Except SqlError Ledger :=
  if ledger.progressRecords.any (·.requestId = row.requestId) then
    .error (.constraint "UNIQUE constraint failed: progress_records.request_id")
  else .ok { ledger with progressRecords := ledger.progressRecords ++ [row] }

def insertMutation (ledger : Ledger) (row : MutationRow) : Except SqlError Ledger :=
  if ledger.mutationRequests.any (·.requestId = row.requestId) then
    .error (.constraint "UNIQUE constraint failed: mutation_requests.request_id")
  else .ok { ledger with mutationRequests := ledger.mutationRequests ++ [row] }

def insertEffectJob (ledger : Ledger) (row : EffectRow) : Except SqlError Ledger :=
  if ledger.effectJobs.any (·.effectId = row.effectId) then
    .error (.constraint "UNIQUE constraint failed: effect_jobs.effect_id")
  else if ledger.effectJobs.any (·.outcomeId = row.outcomeId) then
    .error (.constraint "UNIQUE constraint failed: effect_jobs.outcome_id")
  else if ledger.terminalOutcomes.any (·.outcomeId = row.outcomeId) then
    .ok { ledger with effectJobs := ledger.effectJobs ++ [row] }
  else .error (.constraint "FOREIGN KEY constraint failed")

def insertClaim (ledger : Ledger) (row : ClaimRow) : Except SqlError Ledger :=
  if ledger.engineerClaims.any (·.claimKey = row.claimKey) then
    .error (.constraint "UNIQUE constraint failed: engineer_claims.claim_key")
  else if ledger.engineerClaims.any (·.outcomeId = row.outcomeId) then
    .error (.constraint "UNIQUE constraint failed: engineer_claims.outcome_id")
  else if ledger.terminalOutcomes.any (·.outcomeId = row.outcomeId) then
    .ok { ledger with engineerClaims := ledger.engineerClaims ++ [row] }
  else .error (.constraint "FOREIGN KEY constraint failed")

def deleteClaim (ledger : Ledger) (claimKey : String) : Ledger :=
  { ledger with engineerClaims := Table.deleteWhere (·.claimKey = claimKey) ledger.engineerClaims }

def insertDecision (ledger : Ledger) (row : DecisionRow) : Except SqlError Ledger :=
  if ledger.authorizationDecisions.any (·.decisionId = row.decisionId) then
    .error (.constraint "UNIQUE constraint failed: authorization_decisions.decision_id")
  else if ledger.effectJobs.any (·.effectId = row.effectId) then
    .ok { ledger with authorizationDecisions := ledger.authorizationDecisions ++ [row] }
  else .error (.constraint "FOREIGN KEY constraint failed")

def insertProcess (ledger : Ledger) (row : ProcessRow) : Except SqlError Ledger :=
  if ledger.processExecutions.any (·.executionId = row.executionId) then
    .error (.constraint "UNIQUE constraint failed: process_executions.execution_id")
  else if ledger.processExecutions.any (·.requestId = row.requestId) then
    .error (.constraint "UNIQUE constraint failed: process_executions.request_id")
  else .ok { ledger with processExecutions := ledger.processExecutions ++ [row] }

def upsertSession (ledger : Ledger) (row : SessionRow) : Ledger :=
  { ledger with
    actorSessions :=
      if ledger.actorSessions.any (·.sessionId = row.sessionId) then
        Table.updateWhere (·.sessionId = row.sessionId) (fun _ => row) ledger.actorSessions
      else ledger.actorSessions ++ [row] }

def deleteExpiredSessions (ledger : Ledger) (now : Int) : Ledger :=
  { ledger with actorSessions := Table.deleteWhere (·.expiresAt < now) ledger.actorSessions }

theorem insertTerminal_eq_ok {ledger after : Ledger} {row : TerminalRow} :
    ledger.insertTerminal row = .ok after ↔
      (∀ old ∈ ledger.terminalOutcomes, old.requestId ≠ row.requestId ∧
        old.outcomeId ≠ row.outcomeId ∧
        ¬(old.sessionId = row.sessionId ∧ old.cycleId = row.cycleId)) ∧
      after = { ledger with terminalOutcomes := ledger.terminalOutcomes ++ [row] } := by
  unfold insertTerminal
  rw [guard_eq_ok, guard_eq_ok, guard_eq_ok]
  grind

theorem insertProgress_eq_ok {ledger after : Ledger} {row : ProgressRow} :
    ledger.insertProgress row = .ok after ↔
      (∀ old ∈ ledger.progressRecords, old.requestId ≠ row.requestId) ∧
      after = { ledger with progressRecords := ledger.progressRecords ++ [row] } := by
  unfold insertProgress
  rw [guard_eq_ok]
  grind

theorem insertMutation_eq_ok {ledger after : Ledger} {row : MutationRow} :
    ledger.insertMutation row = .ok after ↔ ledger.request row.requestId = none ∧
      after = { ledger with mutationRequests := ledger.mutationRequests ++ [row] } := by
  unfold insertMutation request
  rw [guard_eq_ok, Table.lookup_eq_none]
  grind

theorem insertEffectJob_eq_ok {ledger after : Ledger} {row : EffectRow} :
    ledger.insertEffectJob row = .ok after ↔
      (∀ old ∈ ledger.effectJobs, old.effectId ≠ row.effectId ∧ old.outcomeId ≠ row.outcomeId) ∧
      (∃ terminal ∈ ledger.terminalOutcomes, terminal.outcomeId = row.outcomeId) ∧
      after = { ledger with effectJobs := ledger.effectJobs ++ [row] } := by
  unfold insertEffectJob
  rw [guard_eq_ok, guard_eq_ok]
  grind

theorem insertClaim_eq_ok {ledger after : Ledger} {row : ClaimRow} :
    ledger.insertClaim row = .ok after ↔
      (∀ old ∈ ledger.engineerClaims,
        old.claimKey ≠ row.claimKey ∧ old.outcomeId ≠ row.outcomeId) ∧
      (∃ terminal ∈ ledger.terminalOutcomes, terminal.outcomeId = row.outcomeId) ∧
      after = { ledger with engineerClaims := ledger.engineerClaims ++ [row] } := by
  unfold insertClaim
  rw [guard_eq_ok, guard_eq_ok]
  grind

theorem insertDecision_eq_ok {ledger after : Ledger} {row : DecisionRow} :
    ledger.insertDecision row = .ok after ↔
      (∀ old ∈ ledger.authorizationDecisions, old.decisionId ≠ row.decisionId) ∧
      (∃ job ∈ ledger.effectJobs, job.effectId = row.effectId) ∧
      after = { ledger with
        authorizationDecisions := ledger.authorizationDecisions ++ [row] } := by
  unfold insertDecision
  rw [guard_eq_ok]
  grind

theorem insertProcess_eq_ok {ledger after : Ledger} {row : ProcessRow} :
    ledger.insertProcess row = .ok after ↔
      (∀ old ∈ ledger.processExecutions,
        old.executionId ≠ row.executionId ∧ old.requestId ≠ row.requestId) ∧
      after = { ledger with processExecutions := ledger.processExecutions ++ [row] } := by
  unfold insertProcess
  rw [guard_eq_ok, guard_eq_ok]
  grind

/-- Update the effect rows a `WHERE` clause selects; also how many there were. -/
def updateEffects (ledger : Ledger) (p : EffectRow → Bool) (f : EffectRow → EffectRow) :
    Nat × Ledger :=
  (ledger.effectJobs.countP p,
    { ledger with effectJobs := Table.updateWhere p f ledger.effectJobs })

end Ledger

end Simard.TypedOoda
