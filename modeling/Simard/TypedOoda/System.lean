import Simard.Library.Pool
import Simard.TypedOoda.Executor
import Simard.TypedOoda.Transactions

/-! The running system: any number of clients, process executions and outbox
workers over one ledger, interleaved command by command. A database carries the
uniqueness its schema declares. -/
namespace Simard.TypedOoda
open Simard.Library

/-- What a command reads from outside when it is carried out. -/
structure World extends Ambient where
  freshUuid : String
  systemTimeNow : SystemTime
  execute : EffectJob → Except EffectExecutionError EffectResult
  captureProcessOutput : ProcessExecRequest → Except String CapturedProcessOutput

inductive Job where
  | call (policy : CapabilityPolicy) (operation : Call) (isPublic : operation.isPublic)
  | executeProcess (policy : CapabilityPolicy) (actor : AuthenticatedToolContext)
      (request : ProcessExecRequest)
  | recoverStartup (worker : OutboxWorker)
  | drainPending (worker : OutboxWorker) (limit : Nat)
  | dispatchOutcome (worker : OutboxWorker) (outcome : TerminalOutcome)

inductive Reply where
  | called (operation : Call) (result : CapabilityResult operation.Result)
  | executed (result : CapabilityResult ProcessExecutionRecord)
  | recovered (result : Except CycleError Nat)
  | drained (result : Except CycleError Nat)
  | dispatched (result : Except CycleError Unit)

def Job.program : Job → Act Reply
  | .call policy operation _ => do
      let result ← Act.call policy operation
      pure (.called operation result)
  | .executeProcess policy actor request => do
      let result ← TypedOoda.executeProcess policy actor request
      pure (.executed result)
  | .recoverStartup worker => do
      let result ← worker.recoverStartup
      pure (.recovered result)
  | .drainPending worker limit => do
      let result ← worker.drainPending limit
      pure (.drained result)
  | .dispatchOutcome worker outcome => do
      let result ← worker.dispatchOutcome outcome
      pure (.dispatched result)

def respond (ledger : Ledger) (world : World) : (cmd : Cmd) → cmd.Answer × Ledger
  | .call policy operation =>
      ((perform policy world.toAmbient ledger operation).map (·.1),
        commit policy world.toAmbient ledger operation)
  | .captureProcessOutput request => (world.captureProcessOutput request, ledger)
  | .execute job => (world.execute job, ledger)
  | .observeOnlyEnabled => (world.observeOnlyEnabled, ledger)
  | .newUuid => (world.freshUuid, ledger)
  | .systemTimeNow => (world.systemTimeNow, ledger)

abbrev System := Pool Ledger Cmd Cmd.Answer Reply

abbrev SystemEvent := Pool.Event Job World

abbrev SystemStep := Machine.Transition System SystemEvent

def host : Pool.Host Ledger Job World Cmd Cmd.Answer Reply where
  program := Job.program
  answer := respond

def system : Machine System SystemEvent := host.machine

/-- A handler call as it is carried out: under which policy and surroundings. -/
structure Operation where
  policy : CapabilityPolicy
  env : Ambient
  call : Call

def Cmd.operation (world : World) : Cmd → Option Operation
  | .call policy operation => some ⟨policy, world.toAmbient, operation⟩
  | _ => none

/-- The handler call an event lets a thread make. -/
def operationOf (pool : System) (event : SystemEvent) : Option Operation :=
  (pool.issued event).bind fun issued => issued.2.operation issued.1

namespace Operation

def result (op : Operation) (ledger : Ledger) : CapabilityResult (op.call.Result × Ledger) :=
  perform op.policy op.env ledger op.call

def commit (op : Operation) (ledger : Ledger) : Ledger :=
  TypedOoda.commit op.policy op.env ledger op.call

def isFresh (op : Operation) (ledger : Ledger) : Bool :=
  op.call.isFresh op.policy op.env ledger

variable (op : Operation) {ledger after : Ledger}

theorem commit_of_ok {value : op.call.Result} (h : op.result ledger = .ok (value, after)) :
    op.commit ledger = after := by
  unfold result at h
  unfold commit TypedOoda.commit
  rw [h]

theorem commit_of_error {error : CapabilityError} (h : op.result ledger = .error error) :
    op.commit ledger = ledger := by
  unfold result at h
  unfold commit TypedOoda.commit
  rw [h]

variable {op}

theorem isFresh_of_ticket {ticket : Ticket}
    (h : op.call.ticket op.policy op.env = some (.ok ticket)) :
    op.isFresh ledger = (ledger.request ticket.requestId).isNone := by
  unfold isFresh Call.isFresh
  rw [h]

end Operation

theorem step_ledger (pool : System) (event : SystemEvent) :
    (system.step pool event).shared =
      match operationOf pool event with
      | some op => op.commit pool.shared
      | none => pool.shared := by
  have hshared := host.step_shared pool event
  change (system.step pool event).shared = _ at hshared
  rw [hshared]
  unfold operationOf
  cases hissued : pool.issued event with
  | none => rfl
  | some issued =>
    obtain ⟨world, cmd⟩ := issued
    cases cmd <;> rfl

theorem step_ledger_cases (pool : System) (event : SystemEvent) :
    (system.step pool event).shared = pool.shared ∨
      ∃ op, operationOf pool event = some op ∧
        Commit op.policy op.env pool.shared op.call (system.step pool event).shared := by
  rw [step_ledger]
  cases hop : operationOf pool event with
  | none => exact .inl rfl
  | some op =>
    rcases commit_cases op.policy op.env pool.shared op.call with h | h
    · exact .inl h
    · exact .inr ⟨op, rfl, h⟩

theorem ledger_invariant {P : Ledger → Prop}
    (hcommit : ∀ policy env ledger call after, Commit policy env ledger call after →
      P ledger → P after)
    {pool : System} (h : P pool.shared) (events : List SystemEvent) :
    P (system.run pool events).shared := by
  apply Machine.invariant_run (P := fun pool : System => P pool.shared) system
  · intro pool event hpool
    rcases step_ledger_cases pool event with hsame | ⟨op, -, hop⟩
    · rw [hsame]
      exact hpool
    · exact hcommit _ _ _ _ _ hop hpool
  · exact h

theorem respond_keeps {P : Ledger → Prop} {ledger : Ledger} (h : P ledger)
    (hcommit : ∀ policy env call after, Commit policy env ledger call after → P after)
    (world : World) (cmd : Cmd) : P (respond ledger world cmd).2 := by
  cases cmd with
  | call policy operation =>
    change P (commit policy world.toAmbient ledger operation)
    rcases commit_cases policy world.toAmbient ledger operation with hsame | hafter
    · rw [hsame]
      exact h
    · exact hcommit _ _ _ _ hafter
  | _ => exact h

/-- The primary keys and unique columns the schema declares. -/
structure Ledger.KeysUnique (ledger : Ledger) : Prop where
  terminalRequest : Table.Keyed TerminalRow.requestId ledger.terminalOutcomes
  terminalOutcome : Table.Keyed TerminalRow.outcomeId ledger.terminalOutcomes
  terminalCycle : Table.Keyed (fun row : TerminalRow => (row.sessionId, row.cycleId))
    ledger.terminalOutcomes
  mutation : Table.Keyed MutationRow.requestId ledger.mutationRequests
  effect : Table.Keyed EffectRow.effectId ledger.effectJobs
  effectOutcome : Table.Keyed EffectRow.outcomeId ledger.effectJobs
  claim : Table.Keyed ClaimRow.claimKey ledger.engineerClaims
  session : Table.Keyed SessionRow.sessionId ledger.actorSessions
  processRequest : Table.Keyed ProcessRow.requestId ledger.processExecutions
  process : Table.Keyed ProcessRow.executionId ledger.processExecutions
  counter : Table.Keyed (fun row : CounterRow => (row.scope, row.mutationType))
    ledger.mutationScopeCounters

/-- A ledger whose tables meet the schema. -/
structure Database where
  ledger : Ledger
  keys : ledger.KeysUnique

theorem keysUnique_empty : Ledger.empty.KeysUnique := by
  constructor <;> exact List.nodup_nil

def Database.empty : Database := ⟨Ledger.empty, keysUnique_empty⟩

/-- The columns of an effect that no mutation writes. -/
structure EffectRow.SameEffect (row after : EffectRow) : Prop where
  effectId : after.effectId = row.effectId
  outcomeId : after.outcomeId = row.outcomeId
  requestId : after.requestId = row.requestId
  kind : after.kind = row.kind
  actionJson : after.actionJson = row.actionJson

namespace EffectRow

variable (row : EffectRow)

theorem sameEffect_claimed (worker : String) (expiresAt : Int) :
    row.SameEffect (row.claimed worker expiresAt) := ⟨rfl, rfl, rfl, rfl, rfl⟩

theorem sameEffect_recovered : row.SameEffect row.recovered := ⟨rfl, rfl, rfl, rfl, rfl⟩

theorem sameEffect_blockedFor (reason : String) : row.SameEffect (row.blockedFor reason) :=
  ⟨rfl, rfl, rfl, rfl, rfl⟩

theorem sameEffect_unblocked : row.SameEffect row.unblocked := ⟨rfl, rfl, rfl, rfl, rfl⟩

end EffectRow

theorem LeasedChange.sameEffect {policy : CapabilityPolicy} {call : Call} {lease : EffectJob}
    {plan : LeasePlan} {f : EffectRow → EffectRow} (h : LeasedChange policy call lease plan f)
    (row : EffectRow) : row.SameEffect (f row) := by
  cases h <;> exact ⟨rfl, rfl, rfl, rfl, rfl⟩

theorem keyed_record {ledger : Ledger} {ticket : Ticket} {result : Json}
    (h : Table.Keyed MutationRow.requestId ledger.mutationRequests)
    (hfree : ledger.request ticket.requestId = none) :
    Table.Keyed MutationRow.requestId (ledger.mutationRequests ++ [ticket.row result]) :=
  Table.keyed_append.mpr ⟨h, Table.lookup_eq_none.mp hfree⟩

theorem keyed_upsertSession {ledger : Ledger} (row : SessionRow)
    (h : Table.Keyed SessionRow.sessionId ledger.actorSessions) :
    Table.Keyed SessionRow.sessionId (ledger.upsertSession row).actorSessions := by
  unfold Ledger.upsertSession
  simp only
  by_cases hold : ledger.actorSessions.any (·.sessionId = row.sessionId)
  · rw [if_pos hold]
    have hkeys : (Table.updateWhere (·.sessionId = row.sessionId) (fun _ => row)
        ledger.actorSessions).map SessionRow.sessionId =
          ledger.actorSessions.map SessionRow.sessionId := by
      unfold Table.updateWhere
      rw [List.map_map]
      apply List.map_congr_left
      intro old _
      by_cases hkey : old.sessionId = row.sessionId <;> simp [hkey]
    unfold Table.Keyed
    rw [hkeys]
    exact h
  · rw [if_neg hold]
    apply Table.keyed_append.mpr
    exact ⟨h, by simpa using hold⟩

theorem keyed_reserveProcessSlot {ledger after : Ledger} {scope : Scope} {limit : Nat}
    (hslot : reserveProcessSlot ledger scope limit = .ok after)
    (h : Table.Keyed (fun row : CounterRow => (row.scope, row.mutationType))
      ledger.mutationScopeCounters) :
    Table.Keyed (fun row : CounterRow => (row.scope, row.mutationType))
      after.mutationScopeCounters := by
  unfold reserveProcessSlot at hslot
  obtain ⟨limit, -, hslot⟩ := bind_eq_ok.mp hslot
  split at hslot
  next hcounter =>
    split at hslot
    · cases hslot
    · cases hslot
      apply Table.keyed_append.mpr
      refine ⟨h, ?_⟩
      intro old hold
      have hnone := List.find?_eq_none.mp hcounter old hold
      simpa [CounterRow.countsFor] using hnone
  next row hcounter =>
    split at hslot
    · cases hslot
      exact h.updateWhere _ (fun _ => rfl)
    · cases hslot

theorem ClaimsAfter.keyed {env : Ambient} {claims after : List ClaimRow}
    {outcome : TerminalOutcome} {action : Action}
    (hclaims : ClaimsAfter env claims outcome action after)
    (h : Table.Keyed ClaimRow.claimKey claims) : Table.Keyed ClaimRow.claimKey after := by
  cases hclaims with
  | unchanged => exact h
  | added hkey _ => exact Table.keyed_append.mpr ⟨h, hkey⟩
  | reclaimed _ _ =>
    apply Table.keyed_append.mpr
    refine ⟨h.deleteWhere _, ?_⟩
    intro old hold
    simpa using (Table.mem_deleteWhere.mp hold).2

section Keys

variable {policy : CapabilityPolicy} {env : Ambient} {ledger after : Ledger} {call : Call}

theorem keysUnique_setEffects (h : ledger.KeysUnique) (p : EffectRow → Bool)
    {f : EffectRow → EffectRow} (hf : ∀ row : EffectRow, row.SameEffect (f row)) :
    (ledger.setEffects p f).KeysUnique :=
  { h with
    effect := h.effect.updateWhere p fun row => (hf row).effectId
    effectOutcome := h.effectOutcome.updateWhere p fun row => (hf row).outcomeId }

theorem keysUnique_addDecision (h : ledger.KeysUnique) (row : DecisionRow) :
    (ledger.addDecision row).KeysUnique :=
  { h with effect := h.effect }

theorem keysUnique_record {ticket : Ticket} {result : Json} (h : ledger.KeysUnique)
    (hfree : ledger.request ticket.requestId = none) : (ledger.record ticket result).KeysUnique :=
  { h with mutation := keyed_record h.mutation hfree }

theorem keysUnique_addTerminal {outcome : TerminalOutcome} {ticket : Ticket}
    (h : ledger.KeysUnique) (hnew : ledger.admitsTerminal outcome) :
    (ledger.addTerminal outcome ticket).KeysUnique :=
  { h with
    terminalRequest := Table.keyed_append.mpr
      ⟨h.terminalRequest, fun old hold => (hnew old hold).1⟩
    terminalOutcome := Table.keyed_append.mpr
      ⟨h.terminalOutcome, fun old hold => (hnew old hold).2.1⟩
    terminalCycle := Table.keyed_append.mpr
      ⟨h.terminalCycle, fun old hold hkey => (hnew old hold).2.2 (Prod.ext_iff.mp hkey)⟩ }

theorem keysUnique_commit (hcommit : Commit policy env ledger call after)
    (h : ledger.KeysUnique) : after.KeysUnique := by
  cases hcommit with
  | session hplan hfree hscope =>
    refine keysUnique_record { h with session := keyed_upsertSession _ ?_ } hfree
    exact h.session.deleteWhere _
  | purge => exact { h with session := Table.keyed_nil _ }
  | release => exact { h with claim := h.claim.deleteWhere _ }
  | approval hplan hfree hdraft hnew =>
    refine keysUnique_record ?_ hfree
    exact keysUnique_setEffects (keysUnique_addDecision h _) _ EffectRow.sameEffect_unblocked
  | terminal hticket htype hid hpayload hfree hnew =>
    exact keysUnique_record (keysUnique_addTerminal h hnew) hfree
  | action hplan hfree hkey hadmitted hnew hclaims heffect =>
    exact { h with
      terminalRequest := (keysUnique_addTerminal h hnew).terminalRequest
      terminalOutcome := (keysUnique_addTerminal h hnew).terminalOutcome
      terminalCycle := (keysUnique_addTerminal h hnew).terminalCycle
      mutation := keyed_record h.mutation hfree
      claim := hclaims.keyed h.claim
      effect := Table.keyed_append.mpr ⟨h.effect, fun old hold => (heffect old hold).1⟩
      effectOutcome := Table.keyed_append.mpr
        ⟨h.effectOutcome, fun old hold => (heffect old hold).2⟩ }
  | progress hplan hfree hopen => exact keysUnique_record { h with } hfree
  | claim hselects hfree hread =>
    exact keysUnique_record
      (keysUnique_setEffects h _ fun row => row.sameEffect_claimed _ _) hfree
  | recover hplan hfree =>
    exact keysUnique_record
      (keysUnique_setEffects h _ EffectRow.sameEffect_recovered) hfree
  | leased hchange hfree hone =>
    exact keysUnique_record (keysUnique_setEffects h _ hchange.sameEffect) hfree
  | block hplan hfree hnew hone =>
    refine keysUnique_record ?_ hfree
    exact keysUnique_setEffects (keysUnique_addDecision h _) _
      fun row => row.sameEffect_blockedFor _
  | reserve hplan hfree hslot hnew =>
    have hframe := reserveProcessSlot_frame hslot
    have hcounter := keyed_reserveProcessSlot hslot h.counter
    rw [hframe] at hcounter ⊢
    exact { h with
      counter := hcounter
      process := Table.keyed_append.mpr ⟨h.process, fun old hold => (hnew old hold).1⟩
      processRequest := Table.keyed_append.mpr
        ⟨h.processRequest, fun old hold => (hnew old hold).2⟩
      mutation := keyed_record h.mutation hfree }
  | update hone =>
    exact { h with
      process := h.process.updateWhere _ fun _ => rfl
      processRequest := h.processRequest.updateWhere _ fun _ => rfl
      mutation := h.mutation.updateWhere _ fun _ => rfl }

theorem keysUnique_respond (world : World) (cmd : Cmd) (h : ledger.KeysUnique) :
    (respond ledger world cmd).2.KeysUnique :=
  respond_keeps h (fun _ _ _ _ hcommit => keysUnique_commit hcommit h) world cmd

theorem keysUnique_run {pool : System} (h : pool.shared.KeysUnique) (events : List SystemEvent) :
    (system.run pool events).shared.KeysUnique :=
  ledger_invariant (fun _ _ _ _ _ => keysUnique_commit) h events

end Keys

def sampleWorld (label : String) (observeOnly : Bool) (now : Int) : World where
  observeOnlyEnabled := observeOnly
  nowMillis _ := now
  uuid n := label ++ "-" ++ toString n
  engineerLiveness := none
  isFile _ := true
  isDir _ := true
  freshUuid := label
  systemTimeNow := now * 1000000
  execute _ := .ok (.succeeded [])
  captureProcessOutput _ := .ok ⟨true, some 0, [], []⟩

def samplePolicy : CapabilityPolicy := .new "policy-1"

def sampleActor : AuthenticatedToolContext :=
  { AuthenticatedToolContext.new "engineer" "session-1" [.recordAction .requestMerge] with
    boundRepository := some ⟨"rysweet", "Simard"⟩
    boundCycleId := some "cycle-1"
    boundGoalId := some "goal-1" }

def sampleMerge : Action :=
  .requestMerge ⟨⟨⟨"rysweet", "Simard"⟩, 7⟩, "0123456789abcdef0123456789abcdef01234567", "squash"⟩

def sampleRequest : RecordActionRequest :=
  ⟨⟨"request-1", "session-1", "cycle-1", "goal-1"⟩, sampleMerge, ⟨[]⟩, []⟩

def recordSampleMerge : Call :=
  .recordAction sampleActor sampleRequest ⟨0, 0, ∅, "policy-1"⟩

def sampleOutcome : TerminalOutcome :=
  actionOutcome (sampleWorld "a" false 0).toAmbient sampleActor sampleRequest
    ⟨0, 0, ∅, "policy-1"⟩

def recordSample : List SystemEvent :=
  [.start (.call samplePolicy recordSampleMerge rfl), .advance 0 (sampleWorld "a" false 0)]

def sampleWorker : OutboxWorker := ⟨samplePolicy, "worker-1", 60000000000⟩

end Simard.TypedOoda
