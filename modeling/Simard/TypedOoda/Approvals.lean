import Simard.TypedOoda.DurableBlock

/-! No privileged effect runs unapproved. A worker executes only the job it has
just leased, a privileged one only with the approval it read with the lease, and
every approval in the ledger was issued for its effect and attests the terminal
the effect is linked to. A lease is a token: one claim mints it, one worker holds
it, and executing gives it up. -/
namespace Simard.TypedOoda
open Simard.Library

/-- How far a worker has come: it has drawn an identifier for a claim, or holds
the job it claimed. -/
inductive LeasePhase where
  | idle
  | drawn (id : String)
  | leased (job : EffectJob)
  deriving DecidableEq

def leaseAllowed (phase : LeasePhase) : Cmd → Prop
  | .execute job => phase = .leased job ∧ (job.action.privileged → job.approval.isSome)
  | _ => True

def leaseNext : LeasePhase → (cmd : Cmd) → cmd.Answer → LeasePhase
  | _, .newUuid, id => .drawn id
  | .drawn id, .call _ call, .ok result =>
      match call.claimedJob result with
      | some job => .leased job
      | none => .drawn id
  | _, .execute _, _ => .idle
  | phase, _, _ => phase

def leaseProtocol : Protocol Cmd Cmd.Answer LeasePhase where
  allowed := leaseAllowed
  next := leaseNext

def Cmd.executes : Cmd → Bool
  | .execute _ => true
  | _ => false

theorem leaseAllowed_of_not_executes (phase : LeasePhase) (cmd : Cmd) (h : cmd.executes = false) :
    leaseProtocol.allowed phase cmd := by
  cases cmd with
  | execute job => cases h
  | _ => trivial

section Worker

variable (worker : OutboxWorker) (phase : LeasePhase)

abbrev Act.Leases (phase : LeasePhase) (program : Act α) : Prop :=
  program.Follows leaseProtocol (fun _ _ => True) phase

theorem leases_orPersistenceFailed {result : CapabilityResult α}
    {next : α → Act (Except CycleError β)} (h : ∀ a, result = .ok a → (next a).Leases phase) :
    (orPersistenceFailed result next).Leases phase := by
  cases result with
  | error e => trivial
  | ok a => exact h a rfl

theorem recoverStartup_leases : worker.recoverStartup.Leases phase := by
  refine ⟨trivial, fun id => ⟨trivial, fun now => ⟨trivial, fun recovered => ?_⟩⟩⟩
  exact leases_orPersistenceFailed _ fun _ _ => trivial

theorem denyEffect_leases (job : EffectJob) (denial : Denial) :
    (worker.denyEffect job denial).Leases phase := by
  refine ⟨trivial, fun blocked => ?_⟩
  exact leases_orPersistenceFailed _ fun _ _ => trivial

theorem authorizeEffect_leases (job : EffectJob) {next : Act (Except CycleError Unit)}
    (hnext : (job.action.privileged → job.approval.isSome) → next.Leases phase) :
    (worker.authorizeEffect job next).Leases phase := by
  refine ⟨trivial, fun observeOnly => ?_⟩
  change Act.Leases (leaseNext phase .observeOnlyEnabled observeOnly) _
  have hphase : leaseNext phase .observeOnlyEnabled observeOnly = phase := by
    cases phase <;> rfl
  rw [hphase]
  match observeOnly with
  | true => exact denyEffect_leases worker phase job observeOnlyDenial
  | false =>
    change Act.Leases phase (if job.action.privileged && job.approval.isNone then
      worker.denyEffect job approvalDenial else next)
    split
    · exact denyEffect_leases worker phase job approvalDenial
    next hpassed =>
      apply hnext
      intro hprivileged
      simpa [hprivileged, Option.isSome_iff_ne_none] using hpassed

theorem finish_leases (job : EffectJob) (operation : String) (result : EffectResult)
    {next : Act (Except CycleError Unit)} (hnext : ∀ phase, next.Leases phase) :
    (worker.finish job operation result next).Leases phase := by
  refine ⟨trivial, fun now => ⟨trivial, fun finished => ?_⟩⟩
  exact leases_orPersistenceFailed _ fun _ _ => hnext _

theorem executeClaimed_leases (job : EffectJob) :
    (worker.executeClaimed job).Leases (.leased job) := by
  apply authorizeEffect_leases
  intro happroved
  refine ⟨⟨rfl, happroved⟩, fun executed => ?_⟩
  cases executed with
  | ok result =>
    apply finish_leases
    intro phase
    cases result <;> trivial
  | error error =>
    change Act.Leases _ (if error.permanent then _ else _)
    split
    · exact finish_leases worker _ job _ _ fun _ => trivial
    · refine ⟨trivial, fun now => ⟨trivial, fun released => ?_⟩⟩
      exact leases_orPersistenceFailed _ fun _ _ => trivial

theorem drainLoop_leases (remaining completed : Nat) :
    (worker.drainLoop remaining completed).Leases phase := by
  induction remaining generalizing completed phase with
  | zero => trivial
  | succ remaining ih =>
    refine ⟨trivial, fun id => ⟨trivial, fun now => ⟨trivial, fun claimed => ?_⟩⟩⟩
    apply leases_orPersistenceFailed
    rintro job rfl
    cases job with
    | none => trivial
    | some job =>
      apply Program.Follows.bind (executeClaimed_leases worker job)
      intro phase result _
      cases result with
      | error error => trivial
      | ok _ => exact ih phase (completed + 1)

theorem drainPending_leases (limit : Nat) : (worker.drainPending limit).Leases phase := by
  apply Program.Follows.bind (recoverStartup_leases worker phase)
  intro phase recovered _
  cases recovered with
  | error error => trivial
  | ok _ => exact drainLoop_leases worker phase limit 0

theorem claimAndExecute_leases (outcome : TerminalOutcome) :
    (worker.claimAndExecute outcome).Leases phase := by
  refine ⟨trivial, fun id => ⟨trivial, fun now => ⟨trivial, fun claimed => ?_⟩⟩⟩
  apply leases_orPersistenceFailed
  rintro job rfl
  cases job with
  | none => trivial
  | some job => exact executeClaimed_leases worker job

theorem dispatchOutcome_leases (outcome : TerminalOutcome) :
    (worker.dispatchOutcome outcome).Leases phase := by
  apply Program.Follows.bind (recoverStartup_leases worker phase)
  intro phase recovered _
  cases recovered with
  | error error => trivial
  | ok _ =>
    refine ⟨trivial, fun current => ?_⟩
    apply leases_orPersistenceFailed
    intro job _
    cases job with
    | none => trivial
    | some job =>
      simp only
      split
      · exact authorizeEffect_leases worker _ job fun _ => claimAndExecute_leases worker _ outcome
      · trivial

end Worker

theorem executeProcess_issues (policy : CapabilityPolicy) (actor : AuthenticatedToolContext)
    (request : ProcessExecRequest) :
    (executeProcess policy actor request).Issues (·.executes = false) := by
  refine ⟨rfl, ?_⟩
  intro answer
  match answer with
  | .error error => trivial
  | .ok (record, false) => trivial
  | .ok (record, true) =>
    refine ⟨rfl, ?_⟩
    intro updated
    match updated with
    | .error error => trivial
    | .ok () =>
      refine ⟨rfl, fun captured => ⟨rfl, fun settled => ?_⟩⟩
      cases settled <;> trivial

theorem job_follows_lease (job : Job) :
    job.program.Follows leaseProtocol (fun _ _ => True) .idle := by
  cases job with
  | call policy operation isPublic => exact ⟨trivial, fun _ => trivial⟩
  | executeProcess policy actor request =>
    exact ((executeProcess_issues policy actor request).follows_any
      leaseAllowed_of_not_executes .idle).bind fun _ _ _ => trivial
  | recoverStartup worker =>
    exact (recoverStartup_leases worker .idle).bind fun _ _ _ => trivial
  | drainPending worker limit =>
    exact (drainPending_leases worker .idle limit).bind fun _ _ _ => trivial
  | dispatchOutcome worker outcome =>
    exact (dispatchOutcome_leases worker .idle outcome).bind fun _ _ _ => trivial

def claimIsNew (ledger : Ledger) : LeasePhase → Cmd → Bool
  | .drawn _, .call _ call => call.claimRequestId.all fun requestId =>
      (ledger.request requestId).isNone
  | _, _ => true

/-- The job is a snapshot of its row, and its approval is in the ledger. -/
structure Authentic (ledger : Ledger) (job : EffectJob) : Prop where
  row : ∃ row, ledger.effect job.effectId = some row ∧ row.outcomeId = job.outcomeId ∧
    fromJson row.actionJson = some job.action
  approval : ∀ approval, job.approval = some approval →
    ∃ decision ∈ ledger.authorizationDecisions, decision.effectId = job.effectId ∧
      decision.decision = .approved ∧ fromJson decision.decisionJson = some approval

section Lease

variable {policy : CapabilityPolicy} {env : Ambient} {ledger after : Ledger} {call : Call}
  {job : EffectJob}

theorem latestApproval_mem {effectId : String} {document : Json}
    (h : latestApproval ledger effectId = some document) :
    ∃ decision ∈ ledger.authorizationDecisions, decision.effectId = effectId ∧
      decision.decision = .approved ∧ decision.decisionJson = document := by
  have hfold (rows : List DecisionRow) (best : Option DecisionRow) (row : DecisionRow)
      (h : rows.foldl laterDecision best = some row) : best = some row ∨ row ∈ rows := by
    induction rows generalizing best with
    | nil => exact .inl h
    | cons first rows ih =>
      rcases ih _ h with h | h
      · unfold laterDecision at h
        grind
      · exact .inr (List.mem_cons_of_mem _ h)
  unfold latestApproval at h
  obtain ⟨decision, hdecision, rfl⟩ := Option.map_eq_some_iff.mp h
  rcases hfold _ _ _ hdecision with hnone | hmem
  · cases hnone
  · obtain ⟨hmem, heffect⟩ := List.mem_filter.mp hmem
    simp only [Bool.and_eq_true, decide_eq_true_eq] at heffect
    exact ⟨decision, hmem, heffect.1, heffect.2, rfl⟩

theorem readEffect_authentic {row : EffectRow} (hrow : ledger.effect row.effectId = some row)
    (h : readEffect ledger row = .ok job) : Authentic ledger job := by
  obtain ⟨hid, houtcome, -, -, -, -, haction, happroval, -⟩ := readEffect_eq_ok h
  refine ⟨⟨row, hid ▸ hrow, houtcome.symm, haction⟩, ?_⟩
  intro approval hsome
  rw [hsome] at happroval
  cases hlatest : latestApproval ledger row.effectId with
  | none =>
    rw [hlatest] at happroval
    cases happroval
  | some document =>
    obtain ⟨decision, hmem, heffect, hdecision, rfl⟩ := latestApproval_mem hlatest
    refine ⟨decision, hmem, heffect.trans hid.symm, hdecision, ?_⟩
    rw [hlatest, Option.mapM_some] at happroval
    cases hdecode : decode (α := PrivilegedApproval) decision.decisionJson with
    | error error =>
      rw [hdecode] at happroval
      cases happroval
    | ok read =>
      rw [hdecode] at happroval
      cases happroval
      exact decode_eq_ok.mp hdecode

theorem perform_leased (hkeys : ledger.KeysUnique) {requestId : String}
    (hid : call.claimRequestId = some requestId) (hfree : ledger.request requestId = none)
    {result : call.Result} (h : perform policy env ledger call = .ok (result, after))
    (hjob : call.claimedJob result = some job) :
    ∃ ticket worker expiresAt selected row,
      Leased ledger after ticket worker expiresAt selected job row := by
  obtain ⟨ticket, worker, expiresAt, selected, hselects, -, hclaim⟩ := perform_claim hid h
  have hsame := hselects.claimRequestId
  rw [hid] at hsame
  cases hsame
  rcases claimWhere_fresh hkeys hfree hclaim with ⟨hnone, -⟩ | ⟨leased, row, hsome, hleased⟩
  · rw [hjob] at hnone
    cases hnone
  · rw [hjob] at hsome
    cases hsome
    exact ⟨ticket, worker, expiresAt, selected, row, hleased⟩

theorem perform_leased_of_new (hkeys : ledger.KeysUnique) {id : String}
    (hnew : claimIsNew ledger (.drawn id) (.call policy call)) {result : call.Result}
    (h : perform policy env ledger call = .ok (result, after))
    (hjob : call.claimedJob result = some job) :
    ∃ ticket worker expiresAt selected row,
      Leased ledger after ticket worker expiresAt selected job row := by
  cases hid : call.claimRequestId with
  | none =>
    rw [Call.claimedJob_of_not_claim hid] at hjob
    cases hjob
  | some requestId =>
    have hfree : ledger.request requestId = none := by
      simpa [claimIsNew, hid] using hnew
    exact perform_leased hkeys hid hfree h hjob

theorem Leased.row_after {ticket : Ticket} {worker : String} {expiresAt : Int}
    {selected : EffectRow → Bool} {row : EffectRow}
    (h : Leased ledger after ticket worker expiresAt selected job row) :
    after.effect job.effectId = some (row.claimed worker expiresAt) := by
  have hafter := effect_setEffects (fun row => selected row && row.state = .pending)
    (fun row => row.sameEffect_claimed worker expiresAt) h.found
  rw [if_pos (by simp [h.chosen, h.pending])] at hafter
  rw [h.after_eq]
  exact hafter

theorem Leased.authentic {ticket : Ticket} {worker : String} {expiresAt : Int}
    {selected : EffectRow → Bool} {row : EffectRow}
    (h : Leased ledger after ticket worker expiresAt selected job row) : Authentic after job := by
  have hrow := h.row_after
  have hid := (readEffect_eq_ok h.read).1
  rw [h.after_eq] at hrow ⊢
  have hread := readEffect_authentic (by rw [← hid]; exact hrow) h.read
  exact ⟨hread.row, hread.approval⟩

theorem EffectMove.sameEffect {row row' : EffectRow}
    (hmove : EffectMove policy env ledger call row row') : row.SameEffect row' := by
  cases hmove with
  | same => exact ⟨rfl, rfl, rfl, rfl, rfl⟩
  | claimed => exact row.sameEffect_claimed _ _
  | recovered => exact row.sameEffect_recovered
  | leased hchange => exact hchange.sameEffect row
  | blocked => exact row.sameEffect_blockedFor _
  | unblocked => exact row.sameEffect_unblocked

theorem commit_decision_mem (hcommit : Commit policy env ledger call after) {row : DecisionRow}
    (h : row ∈ ledger.authorizationDecisions) : row ∈ after.authorizationDecisions := by
  cases hcommit with
  | approval => exact List.mem_append_left _ h
  | block => exact List.mem_append_left _ h
  | reserve hplan hfree hslot hnew =>
    rw [reserveProcessSlot_frame hslot]
    exact h
  | _ => exact h

theorem Authentic.commit (h : Authentic ledger job)
    (hcommit : Commit policy env ledger call after) : Authentic after job := by
  obtain ⟨row, hrow, houtcome, haction⟩ := h.row
  obtain ⟨row', hrow', hmove⟩ := commit_move hcommit hrow
  have hsame := hmove.sameEffect
  refine ⟨⟨row', hrow', hsame.outcomeId.trans houtcome, hsame.actionJson ▸ haction⟩, ?_⟩
  intro approval happroval
  obtain ⟨decision, hmem, hrest⟩ := h.approval approval happroval
  exact ⟨decision, commit_decision_mem hcommit hmem, hrest⟩

end Lease

def LeaseBelief (ledger : Ledger) (phase : LeasePhase) : Prop :=
  ∀ job, phase = .leased job → Authentic ledger job

theorem LeaseBelief.respond {ledger : Ledger} {phase : LeasePhase} (h : LeaseBelief ledger phase)
    (world : World) (cmd : Cmd) : LeaseBelief (respond ledger world cmd).2 phase := by
  intro job hjob
  exact respond_keeps (P := fun ledger => Authentic ledger job) (h job hjob)
    (fun _ _ _ _ hcommit => (h job hjob).commit hcommit) world cmd

theorem leaseNext_leased {ledger : Ledger} {world : World} {phase : LeasePhase} {cmd : Cmd}
    {job : EffectJob} (h : leaseNext phase cmd (respond ledger world cmd).1 = .leased job) :
    phase = .leased job ∨ ∃ id policy call result, phase = .drawn id ∧ cmd = .call policy call ∧
      perform policy world.toAmbient ledger call =
        .ok (result, commit policy world.toAmbient ledger call) ∧
      call.claimedJob result = some job := by
  cases cmd with
  | call policy call =>
    cases phase with
    | drawn id =>
      cases hresult : perform policy world.toAmbient ledger call with
      | error error =>
        simp only [TypedOoda.respond, hresult] at h
        cases h
      | ok value =>
        obtain ⟨result, after⟩ := value
        simp only [TypedOoda.respond, hresult] at h
        change (match call.claimedJob result with
          | some job => LeasePhase.leased job
          | none => .drawn id) = .leased job at h
        split at h
        next found hfound =>
          cases h
          refine .inr ⟨id, policy, call, result, rfl, rfl, ?_, hfound⟩
          unfold commit
          rw [hresult]
        next => cases h
    | _ => exact .inl h
  | newUuid => cases phase <;> cases h
  | execute => cases phase <;> cases h
  | captureProcessOutput => cases phase <;> exact .inl h
  | observeOnlyEnabled => cases phase <;> exact .inl h
  | systemTimeNow => cases phase <;> exact .inl h

theorem lease_guard :
    Pool.GuardRules host leaseProtocol .idle claimIsNew Ledger.KeysUnique LeaseBelief where
  start _ _ _ hleased := nomatch hleased
  shared _ world cmd _ _ h _ _ := keysUnique_respond world cmd h
  next ledger world cmd phase hnew hkeys hbelief _ := by
    intro job hphase
    rcases leaseNext_leased hphase with rfl | ⟨id, policy, call, result, rfl, rfl, hperform, hjob⟩
    · exact hbelief.respond world cmd job rfl
    · obtain ⟨ticket, worker, expiresAt, selected, row, hleased⟩ :=
        perform_leased_of_new hkeys hnew hperform hjob
      exact hleased.authentic
  stable _ world cmd _ _ _ _ _ _ hother := hother.respond world cmd

def LeasePhase.holdsLease (effectId : String) (generation : Nat) : LeasePhase → Bool
  | .leased job => job.effectId = effectId && job.leaseGeneration = generation
  | _ => false

def Ledger.hasLeased (effectId : String) (generation : Nat) (ledger : Ledger) : Bool :=
  (ledger.effect effectId).any (generation ≤ ·.leaseGeneration)

def Cmd.executesLease (effectId : String) (generation : Nat) : Cmd → Bool
  | .execute job => job.effectId = effectId && job.leaseGeneration = generation
  | _ => false

theorem holdsLease_iff {effectId : String} {generation : Nat} {phase : LeasePhase} :
    phase.holdsLease effectId generation ↔
      ∃ job, phase = .leased job ∧ job.effectId = effectId ∧ job.leaseGeneration = generation := by
  cases phase <;> simp [LeasePhase.holdsLease]

theorem hasLeased_respond {effectId : String} {generation : Nat} {ledger : Ledger}
    (hkeys : ledger.KeysUnique) (h : ledger.hasLeased effectId generation) (world : World)
    (cmd : Cmd) : (respond ledger world cmd).2.hasLeased effectId generation := by
  cases cmd with
  | call policy operation =>
    simp only [Ledger.hasLeased, Option.any_eq_true, decide_eq_true_eq] at h ⊢
    obtain ⟨row, hrow, hgeneration⟩ := h
    obtain ⟨row', hrow', hraised⟩ :=
      commit_generation ⟨policy, world.toAmbient, operation⟩ hkeys hrow
    exact ⟨row', hrow', by omega⟩
  | _ => exact h

theorem lease_tokens (effectId : String) (generation : Nat) :
    Pool.TokenRules host leaseProtocol .idle claimIsNew Ledger.KeysUnique
      (LeasePhase.holdsLease effectId generation) (Ledger.hasLeased effectId generation)
      (Cmd.executesLease effectId generation) where
  start := rfl
  needs phase cmd hallowed hspends := by
    cases cmd with
    | execute job =>
      obtain ⟨rfl, -⟩ := hallowed
      exact hspends
    | _ => cases hspends
  spent phase cmd answer _ hspends := by
    cases cmd with
    | execute job => cases phase <;> rfl
    | _ => cases hspends
  mint ledger world cmd phase hkeys hnew hfree hholds := by
    obtain ⟨job, hphase, rfl, rfl⟩ := holdsLease_iff.mp hholds
    rcases leaseNext_leased hphase with rfl | ⟨id, policy, call, result, rfl, rfl, hperform, hjob⟩
    · rw [holdsLease_iff.mpr ⟨job, rfl, rfl, rfl⟩] at hfree
      cases hfree
    · obtain ⟨ticket, worker, expiresAt, selected, row, hleased⟩ :=
        perform_leased_of_new hkeys hnew hperform hjob
      have hgeneration : job.leaseGeneration = row.leaseGeneration + 1 :=
        (readEffect_eq_ok hleased.read).2.2.2.2.1
      constructor
      · simp [Ledger.hasLeased, hleased.found, hgeneration]
      · change Ledger.hasLeased _ _ (commit policy world.toAmbient ledger call)
        simp [Ledger.hasLeased, hleased.row_after, hgeneration, EffectRow.claimed]
  keep _ world cmd hkeys h := hasLeased_respond hkeys h world cmd
  shared _ world cmd h := keysUnique_respond world cmd h

def Call.approval : (call : Call) → call.Result → Option PrivilegedApproval
  | .issuePrivilegedApproval .., approval => some approval
  | _, _ => none

def Operation.issues (op : Operation) (ledger : Ledger) : Option PrivilegedApproval :=
  match op.result ledger with
  | .ok (result, _) => if op.isFresh ledger then op.call.approval result else none
  | .error _ => none

def issuesAt (approval : PrivilegedApproval) (step : SystemStep) : Bool :=
  (operationOf step.before step.event).any fun op =>
    op.call.approves approval.effectId && op.issues step.before.shared = some approval

/-- The approval attests an effect of the ledger and the terminal it is linked to. -/
structure Attests (ledger : Ledger) (approval : PrivilegedApproval) (effect : EffectRow)
    (outcome : TerminalOutcome) (payload : ActionOutcomePayload) : Prop where
  effect_eq : ledger.effect approval.effectId = some effect
  terminal : ∃ row, ledger.terminal effect.outcomeId = some row ∧
    fromJson row.outcomeJson = some outcome
  payload_eq : outcome.payload = .action payload
  action : ∃ action : Action, fromJson effect.actionJson = some action ∧
    approval.canonicalPayloadHash = actionPayloadHash action
  outcomeId : approval.outcomeId = outcome.outcomeId
  sessionId : approval.sessionId = outcome.sessionId
  cycleId : approval.cycleId = outcome.cycleId
  goalId : approval.goalId = outcome.goalId
  repository : approval.repository = outcome.repository
  policyRevision : approval.policyRevision = payload.admission.policyRevision

section Issued

variable {policy : CapabilityPolicy} {env : Ambient} {ledger after : Ledger} {call : Call}

theorem terminalForOutcomeId_eq_ok {outcomeId : String} {outcome : TerminalOutcome}
    (h : terminalForOutcomeId ledger outcomeId = .ok outcome) :
    ∃ row, ledger.terminal outcomeId = some row ∧ fromJson row.outcomeJson = some outcome := by
  unfold terminalForOutcomeId at h
  split at h
  next row hrow => exact ⟨row, hrow, decode_eq_ok.mp h⟩
  next => cases h

theorem draftApproval_attests {authority : ApprovalAuthority} {effectId : String}
    {approval : PrivilegedApproval}
    (h : draftApproval env authority effectId ledger = .ok approval) :
    ∃ effect outcome payload, Attests ledger approval effect outcome payload := by
  have hid := draftApproval_effectId h
  obtain ⟨row, job, outcome, payload, hrow, hread, -, houtcome, hpayload, rfl⟩ :=
    draftApproval_eq_ok h
  obtain ⟨-, hjob, -, -, -, -, haction, -⟩ := readEffect_eq_ok hread
  rw [hjob] at houtcome
  exact ⟨row, outcome, payload, hid ▸ hrow, terminalForOutcomeId_eq_ok houtcome, hpayload,
    ⟨job.action, haction, rfl⟩, rfl, rfl, rfl, rfl, rfl, rfl⟩

theorem commit_terminal (hcommit : Commit policy env ledger call after) {outcomeId : String}
    {row : TerminalRow} (h : ledger.terminal outcomeId = some row) :
    after.terminal outcomeId = some row := by
  cases hcommit with
  | terminal => exact Table.lookup_append_of_some h
  | action => exact Table.lookup_append_of_some h
  | reserve hplan hfree hslot hnew =>
    rw [reserveProcessSlot_frame hslot]
    exact h
  | _ => exact h

theorem Attests.commit {approval : PrivilegedApproval} {effect : EffectRow}
    {outcome : TerminalOutcome} {payload : ActionOutcomePayload}
    (h : Attests ledger approval effect outcome payload)
    (hcommit : Commit policy env ledger call after) :
    ∃ effect, Attests after approval effect outcome payload := by
  obtain ⟨effect', heffect', hmove⟩ := commit_move hcommit h.effect_eq
  have hsame := hmove.sameEffect
  obtain ⟨row, hrow, hjson⟩ := h.terminal
  exact ⟨effect', { h with
    effect_eq := heffect'
    terminal := ⟨row, hsame.outcomeId ▸ commit_terminal hcommit hrow, hjson⟩
    action := hsame.actionJson ▸ h.action }⟩

theorem Attests.kept (op : Operation) {approval : PrivilegedApproval}
    (h : ∃ effect outcome payload, Attests ledger approval effect outcome payload) :
    ∃ effect outcome payload, Attests (op.commit ledger) approval effect outcome payload := by
  rcases commit_cases op.policy op.env ledger op.call with hsame | hcommit
  · unfold Operation.commit
    rw [hsame]
    exact h
  · obtain ⟨effect, outcome, payload, hattests⟩ := h
    obtain ⟨effect', hkept⟩ := hattests.commit hcommit
    exact ⟨effect', outcome, payload, hkept⟩

theorem commit_decision (hcommit : Commit policy env ledger call after) {decision : DecisionRow}
    (h : decision ∈ after.authorizationDecisions) (happroved : decision.decision = .approved) :
    decision ∈ ledger.authorizationDecisions ∨
      ∃ authority requestId effectId,
        call = .issuePrivilegedApproval authority requestId effectId := by
  cases hcommit with
  | approval => exact .inr ⟨_, _, _, rfl⟩
  | block =>
    rcases List.mem_append.mp h with h | h
    · exact .inl h
    · rw [List.mem_singleton.mp h] at happroved
      cases happroved
  | reserve hplan hfree hslot hnew =>
    rw [reserveProcessSlot_frame hslot] at h
    exact .inl h
  | _ => exact .inl h

/-- The approval behind an approved decision that a call added. -/
structure Issues (op : Operation) (ledger : Ledger) (decision : DecisionRow)
    (approval : PrivilegedApproval) : Prop where
  asked : op.call.approves approval.effectId
  issued : op.issues ledger = some approval
  effectId : decision.effectId = approval.effectId
  stored : decision.decisionJson = toJson approval
  attests : ∃ effect outcome payload, Attests ledger approval effect outcome payload

theorem issuePrivilegedApproval_eq_ok {authority : ApprovalAuthority}
    {requestId effectId : String} {approval : PrivilegedApproval}
    (h : issuePrivilegedApproval policy env authority requestId effectId ledger =
      .ok (approval, after)) :
    after = ledger ∨ ∃ ticket, approvalPlan policy authority requestId effectId = .ok ticket ∧
      ledger.request ticket.requestId = none ∧
      draftApproval env authority effectId ledger = .ok approval ∧
      after.authorizationDecisions = ledger.authorizationDecisions ++ [⟨approval.approvalId,
        approval.effectId, .approved, toJson approval, approval.issuedAtUnixMillis⟩] := by
  unfold issuePrivilegedApproval at h
  obtain ⟨ticket, hplan, h⟩ := bind_eq_ok.mp h
  rcases once_eq_ok h with ⟨rfl, -⟩ | ⟨hfree, h⟩
  · exact .inl rfl
  · simp only [bind_eq_ok, persist_eq_ok, Ledger.insertDecision_eq_ok, Ledger.updateEffects,
      recordRequest_record] at h
    obtain ⟨draft, hdraft, -, ⟨-, -, rfl⟩, -, ⟨-, rfl⟩, h⟩ := h
    cases h
    exact .inr ⟨ticket, hplan, hfree, hdraft, rfl⟩

theorem issues_of_ok {authority : ApprovalAuthority} {requestId effectId : String}
    {approval : PrivilegedApproval} {ticket : Ticket}
    (h : issuePrivilegedApproval policy env authority requestId effectId ledger =
      .ok (approval, after))
    (hplan : approvalPlan policy authority requestId effectId = .ok ticket)
    (hfree : ledger.request ticket.requestId = none) :
    Operation.issues ⟨policy, env, .issuePrivilegedApproval authority requestId effectId⟩ ledger =
      some approval := by
  have hfresh : Operation.isFresh
      ⟨policy, env, .issuePrivilegedApproval authority requestId effectId⟩ ledger = true := by
    simp [Operation.isFresh, Call.isFresh, Call.ticket, hplan, hfree]
  simp only [Operation.issues, Operation.result, perform, h, hfresh, if_true]
  rfl

theorem commit_approved (op : Operation) {decision : DecisionRow}
    (hmem : decision ∈ (op.commit ledger).authorizationDecisions)
    (happroved : decision.decision = .approved) :
    decision ∈ ledger.authorizationDecisions ∨ ∃ approval, Issues op ledger decision approval := by
  rcases commit_cases op.policy op.env ledger op.call with hsame | hcommit
  · unfold Operation.commit at hmem
    rw [hsame] at hmem
    exact .inl hmem
  rcases commit_decision hcommit hmem happroved with hold | ⟨authority, requestId, effectId, hcall⟩
  · exact .inl hold
  obtain ⟨policy, env, call⟩ := op
  subst hcall
  cases hresult : Operation.result
      ⟨policy, env, .issuePrivilegedApproval authority requestId effectId⟩ ledger with
  | error error =>
    rw [Operation.commit_of_error _ hresult] at hmem
    exact .inl hmem
  | ok value =>
    obtain ⟨approval, after⟩ := value
    rw [Operation.commit_of_ok _ hresult] at hmem
    rcases issuePrivilegedApproval_eq_ok hresult with rfl | ⟨ticket, hplan, hfree, hdraft, hrows⟩
    · exact .inl hmem
    · rw [hrows] at hmem
      rcases List.mem_append.mp hmem with hold | hnew
      · exact .inl hold
      · rw [List.mem_singleton.mp hnew]
        refine .inr ⟨approval, ?_, issues_of_ok hresult hplan hfree, rfl, rfl,
          draftApproval_attests hdraft⟩
        simp [Call.approves, draftApproval_effectId hdraft]

end Issued

theorem approved_decisions_issued (events : List SystemEvent) {decision : DecisionRow}
    (hmem : decision ∈ (system.run (Pool.init Ledger.empty) events).shared.authorizationDecisions)
    (happroved : decision.decision = .approved) :
    ∃ approval, decision.effectId = approval.effectId ∧
      decision.decisionJson = toJson approval ∧
      (∃ effect outcome payload, Attests (system.run (Pool.init Ledger.empty) events).shared
        approval effect outcome payload) ∧
      ∃ step ∈ system.trace (Pool.init Ledger.empty) events, issuesAt approval step := by
  induction events using List.reverseRecOn generalizing decision with
  | nil => cases hmem
  | append_singleton events event ih =>
    rw [Machine.run_append] at hmem ⊢
    rw [Machine.trace_append]
    change decision ∈ (system.step _ event).shared.authorizationDecisions at hmem
    change ∃ approval, _ ∧ _ ∧ (∃ effect outcome payload,
      Attests (system.step _ event).shared approval effect outcome payload) ∧ _
    rw [step_ledger] at hmem ⊢
    cases hop : operationOf (system.run (Pool.init Ledger.empty) events) event with
    | none =>
      rw [hop] at hmem
      obtain ⟨approval, heffect, hstored, hattests, step, hstep, hissues⟩ := ih hmem happroved
      exact ⟨approval, heffect, hstored, hattests, step, List.mem_append_left _ hstep, hissues⟩
    | some op =>
      rw [hop] at hmem
      rcases commit_approved op hmem happroved with hold | ⟨approval, hissues⟩
      · obtain ⟨approval, heffect, hstored, hattests, step, hstep, hissues⟩ := ih hold happroved
        exact ⟨approval, heffect, hstored, Attests.kept op hattests, step,
          List.mem_append_left _ hstep, hissues⟩
      · refine ⟨approval, hissues.effectId, hissues.stored, Attests.kept op hissues.attests, _,
          List.mem_append_right _ List.mem_cons_self, ?_⟩
        simp [issuesAt, hop, hissues.asked, hissues.issued]

/-- The approval is for this job: its effect, its action and the terminal it is
linked to. -/
structure ApprovedFor (ledger : Ledger) (job : EffectJob) (approval : PrivilegedApproval) :
    Prop where
  effectId : approval.effectId = job.effectId
  payloadHash : approval.canonicalPayloadHash = actionPayloadHash job.action
  terminal : ∃ (row : TerminalRow) (outcome : TerminalOutcome) (payload : ActionOutcomePayload),
    ledger.terminal job.outcomeId = some row ∧ fromJson row.outcomeJson = some outcome ∧
    outcome.payload = .action payload ∧ approval.outcomeId = outcome.outcomeId ∧
    approval.sessionId = outcome.sessionId ∧ approval.cycleId = outcome.cycleId ∧
    approval.goalId = outcome.goalId ∧ approval.repository = outcome.repository ∧
    approval.policyRevision = payload.admission.policyRevision

/-- Identifiers are fresh: no claim that a worker makes under an identifier it has
drawn is under a recorded request id. -/
def claimsAreNew (events : List SystemEvent) : Bool :=
  Pool.meets host leaseProtocol .idle claimIsNew (Pool.init Ledger.empty) events

theorem Authentic.approvedFor {events : List SystemEvent} {job : EffectJob}
    (h : Authentic (system.run (Pool.init Ledger.empty) events).shared job)
    {approval : PrivilegedApproval} (happroval : job.approval = some approval) :
    ApprovedFor (system.run (Pool.init Ledger.empty) events).shared job approval ∧
      ∃ step ∈ system.trace (Pool.init Ledger.empty) events, issuesAt approval step := by
  obtain ⟨row, hrow, houtcome, haction⟩ := h.row
  obtain ⟨decision, hmem, heffect, happroved, hjson⟩ := h.approval approval happroval
  obtain ⟨issued, hissuedId, hstored, ⟨effect, outcome, payload, hattests⟩, hissued⟩ :=
    approved_decisions_issued events hmem happroved
  rw [hstored, Serde.fromJson_toJson] at hjson
  cases hjson
  have hid : approval.effectId = job.effectId := hissuedId.symm.trans heffect
  have hsame := hattests.effect_eq
  rw [hid, hrow] at hsame
  cases hsame
  obtain ⟨action, hstoredAction, hhash⟩ := hattests.action
  rw [haction] at hstoredAction
  cases hstoredAction
  obtain ⟨terminal, hterminal, hdecoded⟩ := hattests.terminal
  exact ⟨⟨hid, hhash, terminal, outcome, payload, houtcome ▸ hterminal, hdecoded,
    hattests.payload_eq, hattests.outcomeId, hattests.sessionId, hattests.cycleId,
    hattests.goalId, hattests.repository, hattests.policyRevision⟩, hissued⟩

/-- In every run of any number of workers, a privileged job is executed only with
an approval that was issued for its effect earlier in the run and matches its
action and its terminal, and no lease is executed twice. -/
theorem privileged_effects_approved (events : List SystemEvent) (hnew : claimsAreNew events) :
    (∀ left event right world job, events = left ++ event :: right →
      (system.run (Pool.init Ledger.empty) left).issued event = some (world, .execute job) →
      job.action.privileged →
        ∃ approval, job.approval = some approval ∧
          ApprovedFor (system.run (Pool.init Ledger.empty) left).shared job approval ∧
          ∃ step ∈ system.trace (Pool.init Ledger.empty) left, issuesAt approval step) ∧
    ∀ effectId generation, (system.trace (Pool.init Ledger.empty) events).countP
      (Pool.spending (Cmd.executesLease effectId generation)) ≤ 1 := by
  constructor
  · rintro left event right world job rfl hissued hprivileged
    obtain ⟨index, next, past, rfl, hthread⟩ := Pool.issued_eq_some hissued
    have hinit : Pool.Following leaseProtocol .idle (fun _ _ => True)
        (Pool.init Ledger.empty : System) := Pool.following_init Ledger.empty
    have hfollowing := host.following_run job_follows_lease hinit left
    have hguarded := host.guarded_run lease_guard job_follows_lease hinit
      (Pool.guarded_init keysUnique_empty) left (Pool.meets_append.mp hnew).1
    obtain ⟨hphase, happroved⟩ := hfollowing.allowed hthread
    obtain ⟨approval, happroval⟩ := Option.isSome_iff_exists.mp (happroved hprivileged)
    have hauthentic := hguarded.2 _ (List.mem_of_getElem? hthread) job hphase
    exact ⟨approval, happroval, hauthentic.approvedFor happroval⟩
  · intro effectId generation
    exact host.spends_at_most_once (lease_tokens effectId generation) job_follows_lease
      keysUnique_empty events hnew

def Cmd.executesPrivileged : Cmd → Bool
  | .execute job => job.action.privileged
  | _ => false

/-- Record the sample merge, approve it, and dispatch it up to its execution. -/
def dispatchApproved : List SystemEvent :=
  recordSample ++
    [.start (.call samplePolicy (.issuePrivilegedApproval ⟨"operator", []⟩ "approve-1" "a-1") rfl),
      .advance 1 (sampleWorld "b" false 1),
      .start (.dispatchOutcome sampleWorker sampleOutcome)] ++
    List.replicate 9 (.advance 2 (sampleWorld "c" false 2))

theorem approved_merge_executes :
    ∃ job approval world,
      (system.run (Pool.init Ledger.empty) dispatchApproved).issued
        (.advance 2 (sampleWorld "c" false 2) : SystemEvent) = some (world, .execute job) ∧
      job.action.privileged ∧ job.approval = some approval ∧
      ApprovedFor (system.run (Pool.init Ledger.empty) dispatchApproved).shared job approval := by
  have hnew : claimsAreNew (dispatchApproved ++ [.advance 2 (sampleWorld "c" false 2)]) := by
    decide
  have hexecutes : ((system.run (Pool.init Ledger.empty) dispatchApproved).issued
      (.advance 2 (sampleWorld "c" false 2) : SystemEvent)).any
        (fun issued => issued.2.executesPrivileged) := by
    decide
  obtain ⟨⟨world, cmd⟩, hissued, hcmd⟩ := (Option.any_eq_true _ _).mp hexecutes
  cases cmd with
  | execute job =>
    obtain ⟨approval, happroval, hfor, -⟩ :=
      (privileged_effects_approved _ hnew).1 dispatchApproved _ [] world job rfl hissued hcmd
    exact ⟨job, approval, world, hissued, hcmd, happroval, hfor⟩
  | _ => cases hcmd

end Simard.TypedOoda
