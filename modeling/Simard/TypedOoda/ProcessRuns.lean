import Simard.TypedOoda.System

/-! What a thread knows while it executes a process. It may update only the
record it reserved, and it spawns the process once, after the record was marked
running. Every other program leaves processes alone. -/
namespace Simard.TypedOoda
open Simard.Library

/-- How far a thread has come with the execution it reserved. -/
inductive ProcessPhase where
  | idle
  | reserved (record : ProcessExecutionRecord) (requestId : String)
  | running (record : ProcessExecutionRecord) (requestId : String)
  | captured (record : ProcessExecutionRecord) (requestId : String)

def ProcessPhase.record : ProcessPhase → Option ProcessExecutionRecord
  | .idle => none
  | .reserved record _ => some record
  | .running record _ => some record
  | .captured record _ => some record

def processAllowed (phase : ProcessPhase) : Cmd → Prop
  | .call _ (.updateProcessExecution record _) =>
      ∃ held, phase.record = some held ∧ record.requestId = held.requestId ∧
        record.executionId = held.executionId
  | .captureProcessOutput request => ∃ record, phase = .running record request.identity.requestId
  | _ => True

def processNext : ProcessPhase → (cmd : Cmd) → cmd.Answer → ProcessPhase
  | _, .call _ (.reserveProcessExecution _ request), .ok (record, true) =>
      .reserved record request.identity.requestId
  | .reserved record requestId, .call _ (.updateProcessExecution ..), .ok _ =>
      .running record requestId
  | .running record requestId, .captureProcessOutput _, _ => .captured record requestId
  | phase, _, _ => phase

def processProtocol : Protocol Cmd Cmd.Answer ProcessPhase where
  allowed := processAllowed
  next := processNext

def Cmd.leavesProcesses : Cmd → Prop
  | .call _ (.updateProcessExecution ..) => False
  | .call _ (.reserveProcessExecution ..) => False
  | .captureProcessOutput _ => False
  | _ => True

theorem leavesProcesses_ignored (phase : ProcessPhase) (cmd : Cmd) (h : cmd.leavesProcesses) :
    processProtocol.allowed phase cmd ∧
      ∀ answer, processProtocol.next phase cmd answer = phase := by
  cases cmd with
  | call policy operation =>
    cases operation with
    | updateProcessExecution => exact h.elim
    | reserveProcessExecution => exact h.elim
    | _ =>
      refine ⟨trivial, ?_⟩
      intro answer
      cases phase <;> rfl
  | captureProcessOutput => exact h.elim
  | _ =>
    refine ⟨trivial, ?_⟩
    intro answer
    cases phase <;> rfl

theorem executeProcess_follows (policy : CapabilityPolicy) (actor : AuthenticatedToolContext)
    (request : ProcessExecRequest) :
    (executeProcess policy actor request).Follows processProtocol (fun _ _ => True) .idle := by
  unfold executeProcess
  refine ⟨trivial, ?_⟩
  intro answer
  match answer with
  | .error error => trivial
  | .ok (record, false) => trivial
  | .ok (record, true) =>
    refine ⟨⟨record, rfl, rfl, rfl⟩, ?_⟩
    intro updated
    match updated with
    | .error error => trivial
    | .ok () =>
      refine ⟨⟨record, rfl⟩, ?_⟩
      intro captured
      refine ⟨⟨record, rfl, ?_, ?_⟩, ?_⟩
      · cases captured <;> rfl
      · cases captured <;> rfl
      · intro settled
        cases settled <;> trivial

section Worker

variable (worker : OutboxWorker)

theorem issues_orPersistenceFailed {p : Cmd → Prop} {result : CapabilityResult α}
    {next : α → Act (Except CycleError β)} (h : ∀ a, (next a).Issues p) :
    (orPersistenceFailed result next).Issues p := by
  cases result with
  | error e => trivial
  | ok a => exact h a

theorem recoverStartup_leavesProcesses : worker.recoverStartup.Issues Cmd.leavesProcesses := by
  refine ⟨trivial, fun id => ⟨trivial, fun now => ⟨trivial, fun recovered => ?_⟩⟩⟩
  exact issues_orPersistenceFailed fun _ => trivial

theorem denyEffect_leavesProcesses (job : EffectJob) (denial : Denial) :
    (worker.denyEffect job denial).Issues Cmd.leavesProcesses := by
  refine ⟨trivial, fun blocked => ?_⟩
  exact issues_orPersistenceFailed fun _ => trivial

theorem authorizeEffect_leavesProcesses (job : EffectJob) {next : Act (Except CycleError Unit)}
    (hnext : next.Issues Cmd.leavesProcesses) :
    (worker.authorizeEffect job next).Issues Cmd.leavesProcesses := by
  refine ⟨trivial, fun observeOnly => ?_⟩
  match observeOnly with
  | true => exact denyEffect_leavesProcesses worker job observeOnlyDenial
  | false =>
    change Program.Issues Cmd.leavesProcesses
      (if job.action.privileged && job.approval.isNone then worker.denyEffect job approvalDenial
        else next)
    split
    · exact denyEffect_leavesProcesses worker job approvalDenial
    · exact hnext

theorem finish_leavesProcesses (job : EffectJob) (operation : String) (result : EffectResult)
    {next : Act (Except CycleError Unit)} (hnext : next.Issues Cmd.leavesProcesses) :
    (worker.finish job operation result next).Issues Cmd.leavesProcesses := by
  refine ⟨trivial, fun now => ⟨trivial, fun finished => ?_⟩⟩
  exact issues_orPersistenceFailed fun _ => hnext

theorem executeClaimed_leavesProcesses (job : EffectJob) :
    (worker.executeClaimed job).Issues Cmd.leavesProcesses := by
  apply authorizeEffect_leavesProcesses
  refine ⟨trivial, fun executed => ?_⟩
  cases executed with
  | ok result =>
    apply finish_leavesProcesses
    cases result <;> trivial
  | error error =>
    change Program.Issues Cmd.leavesProcesses (if error.permanent then _ else _)
    split
    · exact finish_leavesProcesses worker job _ _ trivial
    · refine ⟨trivial, fun now => ⟨trivial, fun released => ?_⟩⟩
      exact issues_orPersistenceFailed fun _ => trivial

theorem drainLoop_leavesProcesses (remaining completed : Nat) :
    (worker.drainLoop remaining completed).Issues Cmd.leavesProcesses := by
  induction remaining generalizing completed with
  | zero => trivial
  | succ remaining ih =>
    refine ⟨trivial, fun id => ⟨trivial, fun now => ⟨trivial, fun claimed => ?_⟩⟩⟩
    apply issues_orPersistenceFailed
    intro job
    cases job with
    | none => trivial
    | some job =>
      apply (executeClaimed_leavesProcesses worker job).bind
      intro result
      cases result with
      | error error => trivial
      | ok _ => exact ih (completed + 1)

theorem drainPending_leavesProcesses (limit : Nat) :
    (worker.drainPending limit).Issues Cmd.leavesProcesses := by
  apply (recoverStartup_leavesProcesses worker).bind
  intro recovered
  cases recovered with
  | error error => trivial
  | ok _ => exact drainLoop_leavesProcesses worker limit 0

theorem claimAndExecute_leavesProcesses (outcome : TerminalOutcome) :
    (worker.claimAndExecute outcome).Issues Cmd.leavesProcesses := by
  refine ⟨trivial, fun id => ⟨trivial, fun now => ⟨trivial, fun claimed => ?_⟩⟩⟩
  apply issues_orPersistenceFailed
  intro job
  cases job with
  | none => trivial
  | some job => exact executeClaimed_leavesProcesses worker job

theorem dispatchOutcome_leavesProcesses (outcome : TerminalOutcome) :
    (worker.dispatchOutcome outcome).Issues Cmd.leavesProcesses := by
  apply (recoverStartup_leavesProcesses worker).bind
  intro recovered
  cases recovered with
  | error error => trivial
  | ok _ =>
    refine ⟨trivial, fun current => ?_⟩
    apply issues_orPersistenceFailed
    intro job
    cases job with
    | none => trivial
    | some job =>
      simp only
      split
      · exact authorizeEffect_leavesProcesses worker job
          (claimAndExecute_leavesProcesses worker outcome)
      · trivial

end Worker

theorem job_follows_process (job : Job) :
    job.program.Follows processProtocol (fun _ _ => True) .idle := by
  have hneutral {program : Act Reply} (h : program.Issues Cmd.leavesProcesses) :
      program.Follows processProtocol (fun _ _ => True) .idle :=
    (h.follows leavesProcesses_ignored .idle).mono fun _ _ _ => trivial
  cases job with
  | call policy operation isPublic =>
    apply hneutral
    refine ⟨?_, fun _ => trivial⟩
    cases operation with
    | reserveProcessExecution => cases isPublic
    | updateProcessExecution => cases isPublic
    | _ => trivial
  | executeProcess policy actor request =>
    exact (executeProcess_follows policy actor request).bind fun _ _ _ => trivial
  | recoverStartup worker =>
    exact hneutral ((recoverStartup_leavesProcesses worker).bind fun _ => trivial)
  | drainPending worker limit =>
    exact hneutral ((drainPending_leavesProcesses worker limit).bind fun _ => trivial)
  | dispatchOutcome worker outcome =>
    exact hneutral ((dispatchOutcome_leavesProcesses worker outcome).bind fun _ => trivial)

section Belief

variable {policy : CapabilityPolicy} {env : Ambient} {ledger after : Ledger}

theorem processExecPlan_ticket {actor : AuthenticatedToolContext} {request : ProcessExecRequest}
    {ticket : Ticket} (h : processExecPlan policy env actor request = .ok ticket) :
    ticket.requestId = request.identity.requestId ∧ ticket.mutationType = .processExec := by
  unfold processExecPlan at h
  obtain ⟨-, -, h⟩ := bind_eq_ok.mp h
  cases h
  exact ⟨rfl, rfl⟩

theorem reserveProcessExecution_reserved {actor : AuthenticatedToolContext}
    {request : ProcessExecRequest} {record : ProcessExecutionRecord}
    (h : reserveProcessExecution policy env actor request ledger = .ok ((record, true), after)) :
    record = newProcessExecution env request ∧
    (∀ old ∈ ledger.processExecutions, old.requestId ≠ request.identity.requestId) ∧
    (∃ row ∈ after.processExecutions, row.requestId = request.identity.requestId) ∧
    (∃ row, after.request request.identity.requestId = some row ∧
      row.mutationType = .processExec) := by
  unfold reserveProcessExecution at h
  obtain ⟨ticket, hplan, h⟩ := bind_eq_ok.mp h
  obtain ⟨hid, htype⟩ := processExecPlan_ticket hplan
  rcases once_eq_ok h with ⟨-, row, existing, -, -, -, hresult⟩ | ⟨hfree, h⟩
  · cases hresult
  · simp only [bind_eq_ok, persist_eq_ok, Ledger.insertProcess_eq_ok, recordRequest_record] at h
    obtain ⟨reserved, hslot, -, ⟨hnew, rfl⟩, -, ⟨-, rfl⟩, hresult⟩ := h
    cases hresult
    have hframe := reserveProcessSlot_frame hslot
    have hrows : reserved.processExecutions = ledger.processExecutions := by rw [hframe]
    have hrequests : reserved.mutationRequests = ledger.mutationRequests := by rw [hframe]
    rw [hrows] at hnew
    refine ⟨rfl, fun old hold => (hnew old hold).2, ⟨_, List.mem_append_right _
      List.mem_cons_self, rfl⟩, ticket.row (toJson (newProcessExecution env request)), ?_, htype⟩
    unfold Ledger.request Ledger.record
    simp only [hrequests]
    rw [← hid, Table.lookup_append]
    change (ledger.request ticket.requestId).or _ = _
    rw [hfree]
    simp [Ticket.row]

/-- What a thread may rely on: the request it reserved is registered as a process
execution. -/
def ProcessBelief (ledger : Ledger) (phase : ProcessPhase) : Prop :=
  ∀ held, phase.record = some held →
    ∃ row, ledger.request held.requestId = some row ∧ row.mutationType = .processExec

theorem processBelief_commit {call : Call} {phase : ProcessPhase}
    (hcommit : Commit policy env ledger call after) (h : ProcessBelief ledger phase) :
    ProcessBelief after phase := by
  intro held hheld
  obtain ⟨row, hrow, htype⟩ := h held hheld
  obtain ⟨row', hrow', hsame⟩ := commit_request hcommit hrow
  refine ⟨row', hrow', ?_⟩
  rcases hsame with rfl | ⟨record, expected, -, -, rfl⟩
  · exact htype
  · exact htype

theorem processBelief_respond (world : World) (cmd : Cmd) {phase : ProcessPhase}
    (h : ProcessBelief ledger phase) : ProcessBelief (respond ledger world cmd).2 phase :=
  respond_keeps (P := fun ledger => ProcessBelief ledger phase) h
    (fun _ _ _ _ hcommit => processBelief_commit hcommit h) world cmd

theorem processBelief_next (world : World) (cmd : Cmd) {phase : ProcessPhase}
    (h : ProcessBelief ledger phase) :
    ProcessBelief (respond ledger world cmd).2
      (processNext phase cmd (respond ledger world cmd).1) := by
  have hstay := processBelief_respond world cmd h
  have hsame {next : ProcessPhase} (hrecord : next.record = phase.record) :
      ProcessBelief (respond ledger world cmd).2 next := by
    intro held hheld
    exact hstay held (hrecord ▸ hheld)
  by_cases hleaves : cmd.leavesProcesses
  · rw [show processNext phase cmd _ = phase from (leavesProcesses_ignored phase cmd hleaves).2 _]
    exact hstay
  · cases cmd with
    | call policy operation =>
      cases operation with
      | updateProcessExecution record expected =>
        apply hsame
        generalize (respond ledger world (.call policy (.updateProcessExecution record
          expected))).1 = answer
        cases phase <;> cases answer <;> rfl
      | reserveProcessExecution actor request =>
        cases hresult : reserveProcessExecution policy world.toAmbient actor request ledger with
        | error error =>
          have hanswer : (respond ledger world (.call policy
              (.reserveProcessExecution actor request))).1 = .error error := by
            simp only [respond, perform, hresult]
            rfl
          rw [hanswer]
          apply hsame
          cases phase <;> rfl
        | ok value =>
          obtain ⟨⟨record, carryOut⟩, after⟩ := value
          have hanswer : (respond ledger world (.call policy
              (.reserveProcessExecution actor request))).1 = .ok (record, carryOut) := by
            simp only [respond, perform, hresult]
            rfl
          rw [hanswer]
          cases carryOut with
          | false =>
            apply hsame
            cases phase <;> rfl
          | true =>
            obtain ⟨hrecord, -, -, row, hrow, htype⟩ := reserveProcessExecution_reserved hresult
            have hafter : (respond ledger world (.call policy
                (.reserveProcessExecution actor request))).2 = after := by
              simp only [respond, commit, perform, hresult]
            rw [hafter]
            intro held hheld
            cases hheld
            rw [hrecord]
            exact ⟨row, hrow, htype⟩
      | _ => exact absurd trivial hleaves
    | captureProcessOutput request =>
      apply hsame
      cases phase <;> rfl
    | _ => exact absurd trivial hleaves

end Belief

def Call.UpdatesRegistered (call : Call) (ledger : Ledger) : Prop :=
  ∀ record expected, call = .updateProcessExecution record expected →
    ∃ row, ledger.request record.requestId = some row ∧ row.mutationType = .processExec

/-- What every transaction keeps, given that updates are of registered executions. -/
def KeptByCommits (P : Ledger → Prop) : Prop :=
  ∀ policy env ledger call after, Commit policy env ledger call after →
    call.UpdatesRegistered ledger → P ledger → P after

theorem KeptByCommits.guard {P : Ledger → Prop} (hkept : KeptByCommits P) :
    Pool.GuardRules host processProtocol .idle (fun _ _ _ => true) P ProcessBelief where
  start _ _ _ hheld := nomatch hheld
  shared ledger world cmd phase _ h hbelief hallowed := by
    cases cmd with
    | call policy operation =>
      rcases commit_cases policy world.toAmbient ledger operation with hsame | hcommit
      · change P (commit policy world.toAmbient ledger operation)
        rw [hsame]
        exact h
      · apply hkept _ _ _ _ _ hcommit _ h
        intro record expected hcall
        subst hcall
        obtain ⟨held, hheld, hid, -⟩ := hallowed
        rw [hid]
        exact hbelief held hheld
    | _ => exact h
  next _ world cmd _ _ _ hbelief _ := processBelief_next world cmd hbelief
  stable _ world cmd _ _ _ _ _ _ hother := processBelief_respond world cmd hother

theorem KeptByCommits.run {P : Ledger → Prop} (hkept : KeptByCommits P) {ledger : Ledger}
    (left : List SystemEvent) (h : P (system.run (Pool.init ledger) left).shared)
    (right : List SystemEvent) : P (system.run (Pool.init ledger) (left ++ right)).shared := by
  have hinit : Pool.Following processProtocol .idle (fun _ _ => True)
      (Pool.init ledger : System) := Pool.following_init ledger
  have hfollowing := host.following_run job_follows_process hinit left
  have hbeliefs := host.guarded_run (KeptByCommits.guard (P := fun _ => True)
    fun _ _ _ _ _ _ _ _ => trivial) job_follows_process hinit (Pool.guarded_init trivial) left
    (Pool.meets_always host _ _)
  rw [Machine.run_append]
  exact (host.guarded_run hkept.guard job_follows_process hfollowing ⟨h, hbeliefs.2⟩ right
    (Pool.meets_always host _ _)).1

end Simard.TypedOoda
