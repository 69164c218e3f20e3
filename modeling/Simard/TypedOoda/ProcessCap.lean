import Simard.TypedOoda.ProcessRuns

/-! The cap on process executions. Every scope's counter stays at or above the
executions recorded for it, also after a migration has filled the counters in,
a slot is given only below the limit, and no request spawns its process twice. -/
namespace Simard.TypedOoda
open Simard.Library

def ProcessRow.scope (row : ProcessRow) : Scope := ⟨row.sessionId, row.cycleId, row.goalId⟩

def Ledger.executions (ledger : Ledger) (scope : Scope) : Nat :=
  ledger.processExecutions.countP (·.scope = scope)

/-- A database file: the schema version it declares, and its tables with the
columns that the migration adds. -/
structure DatabaseFile where
  userVersion : Int
  tables : Ledger

def schemaVersion : Int := 1

def Ledger.adoptRequest (ledger : Ledger) (row : MutationRow) : Ledger :=
  if ledger.mutationRequests.any (·.requestId = row.requestId) then ledger
  else { ledger with mutationRequests := ledger.mutationRequests ++ [row] }

def TerminalRow.legacyRequest (row : TerminalRow) : MutationRow :=
  ⟨row.requestId, .terminal, row.requestHash, row.outcomeJson, 1, 1⟩

def ProgressRow.legacyRequest (row : ProgressRow) : MutationRow :=
  ⟨row.requestId, .progress, row.requestHash, row.progressJson, 1, 1⟩

def Ledger.deleteAmbiguousSessions (ledger : Ledger) : Ledger :=
  { ledger with
    actorSessions := Table.deleteWhere
      (fun row => 1 < ledger.actorSessions.countP (·.sessionId = row.sessionId))
      ledger.actorSessions }

def Ledger.backfillCounter (ledger : Ledger) (scope : Scope) : Ledger :=
  { ledger with
    mutationScopeCounters :=
      match ledger.counter scope with
      | none => ledger.mutationScopeCounters ++ [⟨scope, .processExec, ledger.executions scope⟩]
      | some _ => Table.updateWhere (·.countsFor scope)
          (fun row => { row with spent := max row.spent (ledger.executions scope) })
          ledger.mutationScopeCounters }

def migrate (tables : Ledger) (now : Int) : Ledger :=
  let adopted := (tables.terminalOutcomes.map TerminalRow.legacyRequest ++
    tables.progressRecords.map ProgressRow.legacyRequest).foldl Ledger.adoptRequest tables
  let swept := (adopted.deleteExpiredSessions now).deleteAmbiguousSessions
  (swept.processExecutions.map ProcessRow.scope).dedup.foldl Ledger.backfillCounter swept

/-- Open a database, upgrading it if it is older than the schema; a newer one is
refused. -/
def initializeSchema (file : DatabaseFile) (now : Int) : Option DatabaseFile :=
  if file.userVersion = schemaVersion then some file
  else if file.userVersion > schemaVersion then none
  else some ⟨schemaVersion, migrate file.tables now⟩

section Counters

variable {ledger after : Ledger} {scope : Scope}

theorem CounterRow.countsFor_iff {row : CounterRow} :
    row.countsFor scope ↔ row.scope = scope ∧ row.mutationType = .processExec := by
  unfold CounterRow.countsFor
  simp

theorem spent_insertCounter (h : ledger.counter scope = none) (n : Nat) (other : Scope) :
    ({ ledger with mutationScopeCounters :=
      ledger.mutationScopeCounters ++ [⟨scope, .processExec, n⟩] } : Ledger).spent other =
        if other = scope then n else ledger.spent other := by
  unfold Ledger.spent Ledger.counter at *
  simp only
  rw [List.find?_append]
  by_cases hother : other = scope
  · subst hother
    rw [h]
    simp [CounterRow.countsFor]
  · have hne : scope ≠ other := fun h => hother h.symm
    simp [CounterRow.countsFor, hother, hne]

theorem spent_updateCounter {row : CounterRow} (h : ledger.counter scope = some row) (f : Nat → Nat)
    (other : Scope) :
    ({ ledger with
      mutationScopeCounters := Table.updateWhere (·.countsFor scope)
        (fun row => { row with spent := f row.spent }) ledger.mutationScopeCounters } :
      Ledger).spent other =
        if other = scope then f (ledger.spent scope) else ledger.spent other := by
  have hfind : (Table.updateWhere (·.countsFor scope)
      (fun row => { row with spent := f row.spent }) ledger.mutationScopeCounters).find?
        (·.countsFor other) = (ledger.counter other).map fun row =>
          if row.countsFor scope then { row with spent := f row.spent } else row := by
    unfold Table.updateWhere Ledger.counter
    rw [List.find?_map]
    congr 2
    funext row
    simp only [Function.comp_apply]
    split <;> rfl
  unfold Ledger.spent
  change (Option.map _ (List.find? _ _)).getD 0 = _
  rw [hfind, Option.map_map]
  by_cases hother : other = scope
  · subst hother
    have hcounts : row.countsFor other := List.find?_some h
    simp [h, hcounts]
  · rw [if_neg hother]
    cases hcounter : ledger.counter other with
    | none => rfl
    | some found =>
      have hfound := CounterRow.countsFor_iff.mp (List.find?_some hcounter)
      have hnot : found.countsFor scope = false := by
        apply Bool.eq_false_iff.mpr
        intro hcounts
        exact hother (hfound.1.symm.trans (CounterRow.countsFor_iff.mp hcounts).1)
      simp [hnot]

theorem reserveProcessSlot_spent {limit : Nat}
    (h : reserveProcessSlot ledger scope limit = .ok after) :
    ledger.spent scope < limit ∧
      ∀ other, after.spent other = ledger.spent other + if other = scope then 1 else 0 := by
  unfold reserveProcessSlot at h
  obtain ⟨bounded, hlimit, hslot⟩ := bind_eq_ok.mp h
  have hbounded : bounded = limit := by
    rw [persist_eq_ok] at hlimit
    unfold sqlInteger at hlimit
    split at hlimit
    · exact (Except.ok.inj hlimit).symm
    · cases hlimit
  subst hbounded
  cases hcounter : ledger.counter scope with
  | none =>
    have hzero : ledger.spent scope = 0 := by
      unfold Ledger.spent
      rw [hcounter]
      rfl
    simp only [hcounter] at hslot
    split at hslot
    · cases hslot
    next hpositive =>
      cases hslot
      refine ⟨by omega, fun other => ?_⟩
      rw [spent_insertCounter hcounter]
      split
      next hother =>
        subst hother
        rw [hzero]
      · rfl
  | some row =>
    have hspent : ledger.spent scope = row.spent := by
      unfold Ledger.spent
      rw [hcounter]
      rfl
    simp only [hcounter] at hslot
    split at hslot
    next hbelow =>
      cases hslot
      refine ⟨by omega, fun other => ?_⟩
      rw [spent_updateCounter hcounter (· + 1)]
      split
      next hother =>
        subst hother
        rfl
      · rfl
    · cases hslot

theorem spent_backfillCounter (ledger : Ledger) (scope other : Scope) :
    (ledger.backfillCounter scope).spent other =
      if other = scope then max (ledger.spent scope) (ledger.executions scope)
      else ledger.spent other := by
  unfold Ledger.backfillCounter
  cases hcounter : ledger.counter scope with
  | none =>
    have hzero : ledger.spent scope = 0 := by
      unfold Ledger.spent
      rw [hcounter]
      rfl
    simp only
    rw [spent_insertCounter hcounter, hzero, Nat.zero_max]
  | some row => exact spent_updateCounter hcounter (max · (ledger.executions scope)) other

@[simp] theorem executions_backfillCounter (ledger : Ledger) (scope other : Scope) :
    (ledger.backfillCounter scope).executions other = ledger.executions other := rfl

theorem backfill_covers (scopes : List Scope) (ledger : Ledger) (scope : Scope) :
    (scopes.foldl Ledger.backfillCounter ledger).executions scope = ledger.executions scope ∧
      ledger.spent scope ≤ (scopes.foldl Ledger.backfillCounter ledger).spent scope ∧
      (scope ∈ scopes →
        ledger.executions scope ≤ (scopes.foldl Ledger.backfillCounter ledger).spent scope) := by
  induction scopes generalizing ledger with
  | nil => exact ⟨rfl, le_rfl, nofun⟩
  | cons first scopes ih =>
    obtain ⟨hexecutions, hraised, hcovered⟩ := ih (ledger.backfillCounter first)
    rw [executions_backfillCounter] at hexecutions hcovered
    rw [spent_backfillCounter] at hraised
    rw [List.foldl_cons]
    refine ⟨hexecutions, ?_, ?_⟩
    · split at hraised
      next hfirst =>
        subst hfirst
        exact (Nat.le_max_left _ _).trans hraised
      · exact hraised
    · intro hmem
      rcases List.mem_cons.mp hmem with rfl | hmem
      · rw [if_pos rfl] at hraised
        exact (Nat.le_max_right _ _).trans hraised
      · exact hcovered hmem

def Ledger.Counted (ledger : Ledger) : Prop :=
  ∀ scope, ledger.executions scope ≤ ledger.spent scope

theorem counted_migrate (tables : Ledger) (now : Int) : (migrate tables now).Counted := by
  intro scope
  unfold migrate
  simp only
  generalize Ledger.deleteAmbiguousSessions _ = swept
  obtain ⟨hexecutions, -, hcovered⟩ :=
    backfill_covers (swept.processExecutions.map ProcessRow.scope).dedup swept scope
  rw [hexecutions]
  by_cases hmem : scope ∈ swept.processExecutions.map ProcessRow.scope
  · exact hcovered (List.mem_dedup.mpr hmem)
  · have hnone : swept.executions scope = 0 := by
      unfold Ledger.executions
      rw [List.countP_eq_zero]
      intro row hrow hscope
      exact hmem (List.mem_map.mpr ⟨row, hrow, of_decide_eq_true hscope⟩)
    rw [hnone]
    exact Nat.zero_le _

end Counters

section Transactions

variable {policy : CapabilityPolicy} {env : Ambient} {ledger after : Ledger} {call : Call}

theorem Commit.slots (h : Commit policy env ledger call after) :
    (∀ scope, after.spent scope = ledger.spent scope ∧
      after.executions scope = ledger.executions scope) ∨
    ∃ actor request, call = .reserveProcessExecution actor request ∧
      ledger.spent request.scope < policy.processExecMutationsPerCycle ∧
      ∀ scope, after.spent scope = ledger.spent scope + (if scope = request.scope then 1 else 0) ∧
        after.executions scope =
          ledger.executions scope + (if scope = request.scope then 1 else 0) := by
  cases h with
  | @reserve actor request ticket reserved hplan hfree hslot hnew =>
    obtain ⟨hbelow, hspent⟩ := reserveProcessSlot_spent hslot
    refine .inr ⟨actor, request, rfl, hbelow, fun scope => ⟨hspent scope, ?_⟩⟩
    change (ledger.processExecutions ++ [_]).countP _ = _
    rw [List.countP_append, List.countP_singleton]
    congr 1
    by_cases hscope : scope = request.scope
    · rw [if_pos hscope]
      exact if_pos (decide_eq_true hscope.symm)
    · rw [if_neg hscope]
      exact if_neg fun h => hscope (of_decide_eq_true h).symm
  | update hone =>
    refine .inl fun scope => ⟨rfl, ?_⟩
    unfold Ledger.executions Table.updateWhere
    simp only
    rw [List.countP_map]
    congr 1
    funext row
    simp only [Function.comp_apply]
    split <;> rfl
  | _ => exact .inl fun scope => ⟨rfl, rfl⟩

theorem counted_commit (hcommit : Commit policy env ledger call after) (h : ledger.Counted) :
    after.Counted := by
  intro scope
  have hbefore := h scope
  rcases hcommit.slots with hsame | ⟨actor, request, -, -, hmove⟩
  · rw [(hsame scope).1, (hsame scope).2]
    exact hbefore
  · rw [(hmove scope).1, (hmove scope).2]
    omega

def Ledger.CountedExactly (ledger : Ledger) : Prop :=
  ∀ scope, ledger.spent scope = ledger.executions scope

theorem countedExactly_commit (hcommit : Commit policy env ledger call after)
    (h : ledger.CountedExactly) : after.CountedExactly := by
  intro scope
  have hbefore := h scope
  rcases hcommit.slots with hsame | ⟨actor, request, -, -, hmove⟩
  · rw [(hsame scope).1, (hsame scope).2]
    exact hbefore
  · rw [(hmove scope).1, (hmove scope).2]
    omega

theorem executed_commit (hcommit : Commit policy env ledger call after) {requestId : String}
    (h : ∃ row ∈ ledger.processExecutions, row.requestId = requestId) :
    ∃ row ∈ after.processExecutions, row.requestId = requestId := by
  obtain ⟨row, hrow, hid⟩ := h
  cases hcommit with
  | reserve => exact ⟨row, List.mem_append_left _ hrow, hid⟩
  | @update record expected hone =>
    refine ⟨_, Table.mem_updateWhere.mpr ⟨row, hrow, rfl⟩, ?_⟩
    split
    · exact hid
    · exact hid
  | _ => exact ⟨row, hrow, hid⟩

end Transactions

/-- The thread has reserved this request's execution and not spawned it yet. -/
def ProcessPhase.mayCapture (requestId : String) : ProcessPhase → Bool
  | .reserved _ id => id = requestId
  | .running _ id => id = requestId
  | _ => false

def Ledger.hasExecution (requestId : String) (ledger : Ledger) : Bool :=
  ledger.processExecutions.any (·.requestId = requestId)

def Cmd.captures (requestId : String) : Cmd → Bool
  | .captureProcessOutput request => request.identity.requestId = requestId
  | _ => false

theorem hasExecution_iff {requestId : String} {ledger : Ledger} :
    ledger.hasExecution requestId ↔ ∃ row ∈ ledger.processExecutions,
      row.requestId = requestId := by
  unfold Ledger.hasExecution
  simp

theorem processNext_mayCapture {requestId : String} {ledger : Ledger} {world : World}
    {phase : ProcessPhase} {cmd : Cmd} (hbefore : phase.mayCapture requestId = false)
    (h : (processNext phase cmd (respond ledger world cmd).1).mayCapture requestId) :
    ∃ policy actor request record after,
      cmd = .call policy (.reserveProcessExecution actor request) ∧
      request.identity.requestId = requestId ∧
      reserveProcessExecution policy world.toAmbient actor request ledger =
        .ok ((record, true), after) := by
  have hstuck (hsame : processNext phase cmd (respond ledger world cmd).1 = phase) : False := by
    rw [hsame, hbefore] at h
    cases h
  by_cases hleaves : cmd.leavesProcesses
  · exact (hstuck ((leavesProcesses_ignored phase cmd hleaves).2 _)).elim
  · cases cmd with
    | call policy operation =>
      cases operation with
      | reserveProcessExecution actor request =>
        cases hresult : reserveProcessExecution policy world.toAmbient actor request ledger with
        | error error =>
          simp only [respond, perform, hresult] at hstuck
          exact (hstuck (by cases phase <;> rfl)).elim
        | ok value =>
          obtain ⟨⟨record, carryOut⟩, after⟩ := value
          simp only [respond, perform, hresult] at h hstuck
          cases carryOut with
          | false => exact (hstuck (by cases phase <;> rfl)).elim
          | true =>
            exact ⟨policy, actor, request, record, after, rfl, of_decide_eq_true h, hresult⟩
      | updateProcessExecution record expected =>
        cases phase with
        | reserved held id =>
          -- marking the execution as running passes the token on
          generalize (respond ledger world (.call policy (.updateProcessExecution record
            expected))).1 = answer at h
          cases answer with
          | error error => exact Bool.noConfusion (hbefore.symm.trans h)
          | ok _ => exact Bool.noConfusion (hbefore.symm.trans h)
        | _ => exact (hstuck rfl).elim
      | _ => exact absurd trivial hleaves
    | captureProcessOutput request =>
      cases phase with
      | running held id => cases h
      | _ => exact (hstuck rfl).elim
    | _ => exact absurd trivial hleaves

theorem process_tokens (requestId : String) :
    Pool.TokenRules host processProtocol .idle (fun _ _ _ => true) (fun _ => True)
      (ProcessPhase.mayCapture requestId) (Ledger.hasExecution requestId)
      (Cmd.captures requestId) where
  start := rfl
  needs phase cmd hallowed hspends := by
    cases cmd with
    | captureProcessOutput request =>
      obtain ⟨record, rfl⟩ := hallowed
      exact hspends
    | _ => cases hspends
  spent phase cmd answer hallowed hspends := by
    cases cmd with
    | captureProcessOutput request =>
      obtain ⟨record, rfl⟩ := hallowed
      rfl
    | _ => cases hspends
  mint ledger world cmd phase _ _ hfree hholds := by
    obtain ⟨policy, actor, request, record, after, rfl, rfl, hresult⟩ :=
      processNext_mayCapture hfree hholds
    obtain ⟨-, hnew, hrow, -⟩ := reserveProcessExecution_reserved hresult
    have hafter : (respond ledger world (.call policy
        (.reserveProcessExecution actor request))).2 = after := by
      simp only [respond, commit, perform, hresult]
    constructor
    · apply Bool.eq_false_iff.mpr
      intro hold
      obtain ⟨old, hold, hid⟩ := hasExecution_iff.mp hold
      exact hnew old hold hid
    · change (respond ledger world (.call policy
        (.reserveProcessExecution actor request))).2.hasExecution request.identity.requestId
      rw [hafter]
      exact hasExecution_iff.mpr hrow
  keep ledger world cmd _ h := by
    rw [hasExecution_iff] at h ⊢
    exact respond_keeps h (fun _ _ _ _ hcommit => executed_commit hcommit h) world cmd
  shared _ _ _ _ := trivial

theorem reserveProcessExecution_below {policy : CapabilityPolicy} {env : Ambient}
    {actor : AuthenticatedToolContext} {request : ProcessExecRequest} {ledger after : Ledger}
    {record : ProcessExecutionRecord}
    (h : reserveProcessExecution policy env actor request ledger = .ok ((record, true), after)) :
    ledger.spent request.scope < policy.processExecMutationsPerCycle := by
  unfold reserveProcessExecution at h
  obtain ⟨ticket, -, h⟩ := bind_eq_ok.mp h
  rcases once_eq_ok h with ⟨-, row, existing, -, -, -, hresult⟩ | ⟨-, h⟩
  · cases hresult
  · obtain ⟨reserved, hslot, -⟩ := bind_eq_ok.mp h
    exact (reserveProcessSlot_spent hslot).1

/-- The cap holds over every run of a database opened for the first time: the
counters cover the executions, exactly so when it started empty; a slot is given
below the limit only, and a counter moves by such a reservation only, by one; and
no request's process is spawned twice, however the executions interleave. -/
theorem process_executions_capped (tables : Ledger) (now : Int) :
    ∃ opened, initializeSchema ⟨0, tables⟩ now = some opened ∧
      ∀ events : List SystemEvent,
        (∀ scope, (system.run (Pool.init opened.tables) events).shared.executions scope ≤
          (system.run (Pool.init opened.tables) events).shared.spent scope) ∧
        (tables = Ledger.empty →
          ∀ scope, (system.run (Pool.init opened.tables) events).shared.spent scope =
            (system.run (Pool.init opened.tables) events).shared.executions scope) ∧
        (∀ policy env actor request record after,
          reserveProcessExecution policy env actor request
              (system.run (Pool.init opened.tables) events).shared = .ok ((record, true), after) →
            (system.run (Pool.init opened.tables) events).shared.spent request.scope <
              policy.processExecMutationsPerCycle) ∧
        (∀ step ∈ system.trace (Pool.init opened.tables) events, ∀ scope,
          step.after.shared.spent scope ≠ step.before.shared.spent scope →
            ∃ op actor request, operationOf step.before step.event = some op ∧
              op.call = .reserveProcessExecution actor request ∧ request.scope = scope ∧
              step.before.shared.spent scope < op.policy.processExecMutationsPerCycle ∧
              step.after.shared.spent scope = step.before.shared.spent scope + 1) ∧
        (∀ requestId, (system.trace (Pool.init opened.tables) events).countP
          (Pool.spending (Cmd.captures requestId)) ≤ 1) := by
  refine ⟨⟨1, migrate tables now⟩, rfl, fun events => ⟨?_, ?_, ?_, ?_, ?_⟩⟩
  · have hmigrated : (Pool.init (migrate tables now) : System).shared.Counted :=
      counted_migrate tables now
    exact ledger_invariant (fun _ _ _ _ _ => counted_commit) hmigrated events
  · rintro rfl
    have hmigrated : (Pool.init (migrate Ledger.empty now) : System).shared.CountedExactly :=
      fun _ => rfl
    exact ledger_invariant (fun _ _ _ _ _ => countedExactly_commit) hmigrated events
  · intro policy env actor request record after h
    exact reserveProcessExecution_below h
  · intro step hstep scope hmoved
    obtain ⟨left, right, -, -, hafter⟩ := system.mem_trace hstep
    rw [hafter] at hmoved ⊢
    rcases step_ledger_cases step.before step.event with hsame | ⟨op, hop, hcommit⟩
    · rw [hsame] at hmoved
      exact absurd rfl hmoved
    · rcases hcommit.slots with hsame | ⟨actor, request, hcall, hbelow, hmove⟩
      · exact absurd (hsame scope).1 hmoved
      · by_cases hscope : scope = request.scope
        · have hspent := (hmove scope).1
          rw [if_pos hscope] at hspent
          rw [hscope] at hspent ⊢
          exact ⟨op, actor, request, hop, hcall, rfl, hbelow, hspent⟩
        · have hspent := (hmove scope).1
          rw [if_neg hscope] at hspent
          exact absurd hspent hmoved
  · intro requestId
    exact host.spends_at_most_once (process_tokens requestId) job_follows_process trivial events
      (Pool.meets_always host _ _)

def sampleProcessActor : AuthenticatedToolContext :=
  { sampleActor with
    grants := BTreeSet.ofList [.processExec]
    boundWorkingDirectory := some "/work"
    engineerPermissions := BTreeSet.ofList ["process_exec"] }

def sampleProcessRequest : ProcessExecRequest :=
  ⟨⟨"process-1", "session-1", "cycle-1", "goal-1"⟩, "/bin/true", [], "/work"⟩

def reserveSample : List SystemEvent :=
  [.start (.executeProcess samplePolicy sampleProcessActor sampleProcessRequest),
    .advance 0 (sampleWorld "a" false 0)]

theorem sample_execution_counted :
    ∃ opened, initializeSchema ⟨0, Ledger.empty⟩ 0 = some opened ∧
      (system.run (Pool.init opened.tables) reserveSample).shared.spent sampleProcessRequest.scope =
        (system.run (Pool.init opened.tables) reserveSample).shared.executions
          sampleProcessRequest.scope ∧
      ∃ (op : Operation) (actor : AuthenticatedToolContext) (request : ProcessExecRequest),
        op.call = .reserveProcessExecution actor request ∧
        opened.tables.spent request.scope < op.policy.processExecMutationsPerCycle := by
  obtain ⟨opened, hopened, hruns⟩ := process_executions_capped Ledger.empty 0
  obtain ⟨-, hexact, -, hmoves, -⟩ := hruns reserveSample
  cases hopened
  obtain ⟨op, actor, request, -, hcall, hscope, hbelow, -⟩ :=
    hmoves _ (List.mem_of_getElem? (i := 1) rfl) sampleProcessRequest.scope (by decide)
  exact ⟨_, rfl, hexact rfl _, op, actor, request, hcall, hscope ▸ hbelow⟩

end Simard.TypedOoda
