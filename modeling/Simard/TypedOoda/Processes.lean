import Simard.TypedOoda.Terminals

/-! Process executions: a slot under the cycle's cap and a registry entry are
reserved in one transaction, and the execution then moves from reserved to
running to its end in transactions of their own. -/
namespace Simard.TypedOoda
open Simard.Library

def ProcessExecRequest.scope (request : ProcessExecRequest) : Scope :=
  ⟨request.identity.sessionId, request.identity.cycleId, request.identity.goalId⟩

def validateProcessExecution (policy : CapabilityPolicy) (env : Ambient)
    (actor : AuthenticatedToolContext) (request : ProcessExecRequest) : CapabilityResult Unit := do
  authorize policy actor request.identity .processExec
  ensure (!actor.observeOnly && actor.engineerPermissions.contains "process_exec" &&
      policy.allowedEngineerPermissions.contains "process_exec") .authorizationScopeViolation
    "process_exec is outside the actor, action, or base-type scope"
  ensure (['/'].isPrefixOf request.program.toList && env.isFile request.program) .invalidArgument
    "process executable must be an existing absolute file"
  ensure (actor.boundWorkingDirectory.any (samePath · request.workingDirectory) &&
      env.isDir request.workingDirectory) .authorizationScopeViolation
    "process working directory does not match authenticated action scope"
  ensure (request.args.length ≤ 256 && request.args.all fun argument =>
      !argument.toList.contains (Char.ofNat 0)) .invalidArgument
    "process arguments exceed the typed execution boundary"

def processExecPlan (policy : CapabilityPolicy) (env : Ambient) (actor : AuthenticatedToolContext)
    (request : ProcessExecRequest) : CapabilityResult Ticket := do
  validateProcessExecution policy env actor request
  .ok ⟨request.identity.requestId, .processExec, canonicalRequest actor policy.revision
    (.arr [.str "process_exec_v1", toJson request])⟩

def CounterRow.countsFor (scope : Scope) (row : CounterRow) : Bool :=
  row.scope = scope && row.mutationType = .processExec

def Ledger.counter (ledger : Ledger) (scope : Scope) : Option CounterRow :=
  ledger.mutationScopeCounters.find? (·.countsFor scope)

def Ledger.spent (ledger : Ledger) (scope : Scope) : Nat :=
  ((ledger.counter scope).map (·.spent)).getD 0

def capExhausted : CapabilityError :=
  ⟨.mutationCapExhausted, "process_exec mutation cap is exhausted for this cycle"⟩

/-- The conditional upsert: a first reservation starts the counter at one, later
ones raise it while it is below the limit. A zero limit is refused after the
insertion, which the transaction then drops. -/
def reserveProcessSlot (ledger : Ledger) (scope : Scope) (limit : Nat) :
    CapabilityResult Ledger := do
  let limit ← persist (sqlInteger limit)
  match ledger.counter scope with
  | none =>
      if limit = 0 then .error capExhausted
      else .ok { ledger with
        mutationScopeCounters := ledger.mutationScopeCounters ++ [⟨scope, .processExec, 1⟩] }
  | some row =>
      if row.spent < limit then
        .ok { ledger with
          mutationScopeCounters := Table.updateWhere (·.countsFor scope)
            (fun row => { row with spent := row.spent + 1 }) ledger.mutationScopeCounters }
      else .error capExhausted

def newProcessExecution (env : Ambient) (request : ProcessExecRequest) :
    ProcessExecutionRecord where
  executionId := env.uuid 0
  requestId := request.identity.requestId
  sessionId := request.identity.sessionId
  cycleId := request.identity.cycleId
  goalId := request.identity.goalId
  status := .reserved
  exitCode := none
  stdout := []
  stderr := []

def processRow (request : ProcessExecRequest) (record : ProcessExecutionRecord) (hash : String) :
    ProcessRow where
  executionId := record.executionId
  requestId := record.requestId
  requestHash := hash
  sessionId := record.sessionId
  cycleId := record.cycleId
  goalId := record.goalId
  status := record.status
  requestJson := toJson request
  resultJson := toJson record

/-- Reserve an execution; the flag says whether the caller is to carry it out. -/
def reserveProcessExecution (policy : CapabilityPolicy) (env : Ambient)
    (actor : AuthenticatedToolContext) (request : ProcessExecRequest) (ledger : Ledger) :
    CapabilityResult ((ProcessExecutionRecord × Bool) × Ledger) := do
  let ticket ← processExecPlan policy env actor request
  once ledger ticket (fun existing : ProcessExecutionRecord => (existing, false)) do
    let reserved ← reserveProcessSlot ledger request.scope policy.processExecMutationsPerCycle
    let record := newProcessExecution env request
    let inserted ← persist (reserved.insertProcess (processRow request record ticket.fingerprint))
    let recorded ← recordRequest inserted ticket (toJson record)
    .ok ((record, true), recorded)

def ProcessRow.moved (record : ProcessExecutionRecord) (row : ProcessRow) : ProcessRow :=
  { row with status := record.status, resultJson := toJson record }

def MutationRow.withResult (result : Json) (row : MutationRow) : MutationRow :=
  { row with resultJson := result }

def updateProcessExecution (record : ProcessExecutionRecord) (expected : ProcessExecutionStatus)
    (ledger : Ledger) : CapabilityResult (Unit × Ledger) :=
  let p := fun row : ProcessRow => row.executionId = record.executionId && row.status = expected
  if ledger.processExecutions.countP p = 1 then
    .ok ((), { ledger with
      processExecutions := Table.updateWhere p (·.moved record) ledger.processExecutions
      mutationRequests := Table.updateWhere (·.requestId = record.requestId)
        (·.withResult (toJson record)) ledger.mutationRequests })
  else .error ⟨.indeterminateExecution, "process execution state changed concurrently"⟩

end Simard.TypedOoda
