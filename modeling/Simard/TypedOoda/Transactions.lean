import Simard.TypedOoda.Handler

/-! What a call can do to the ledger, said once. A call that succeeds either
leaves the ledger as it is (it only reads, or its request was recorded before)
or commits one of the transactions listed here. -/
namespace Simard.TypedOoda
open Simard.Library

@[simp] theorem ensure_eq_ok {condition : Bool} {code : CapabilityErrorCode} {message : String}
    {u : Unit} : ensure condition code message = .ok u ↔ condition = true := by
  unfold ensure
  by_cases h : condition <;> simp [h]

@[simp] theorem persist_eq_ok {result : Except SqlError α} {a : α} :
    persist result = .ok a ↔ result = .ok a :=
  mapError_eq_ok

theorem systemTimeMillis_eq_ok {time : SystemTime} {millis : Int}
    (h : systemTimeMillis time = .ok millis) : millis = time / 1000000 := by
  unfold systemTimeMillis at h
  simp only [bind_eq_ok] at h
  grind

theorem durationMillis_eq_ok {duration : Duration} {message : String} {millis : Int}
    (h : durationMillis duration message = .ok millis) : millis = (duration / 1000000 : Nat) := by
  unfold durationMillis at h
  simp only [bind_eq_ok] at h
  grind

theorem effectLeaseOwner_eq_ok {lease : EffectJob} {owner : String}
    (h : effectLeaseOwner lease = .ok owner) : lease.leaseOwner = some owner := by
  unfold effectLeaseOwner at h
  grind

theorem reading_eq_ok {ledger after : Ledger} {result : CapabilityResult α} {a : α}
    (h : reading ledger result = .ok (a, after)) : result = .ok a ∧ after = ledger := by
  unfold reading at h
  cases result with
  | error e => cases h
  | ok value =>
    cases h
    exact ⟨rfl, rfl⟩

namespace Ledger

def record (ledger : Ledger) (ticket : Ticket) (result : Json) : Ledger :=
  { ledger with mutationRequests := ledger.mutationRequests ++ [ticket.row result] }

def addTerminal (ledger : Ledger) (outcome : TerminalOutcome) (ticket : Ticket) : Ledger :=
  { ledger with
    terminalOutcomes := ledger.terminalOutcomes ++ [⟨outcome.requestId, ticket.fingerprint,
      outcome.sessionId, outcome.cycleId, outcome.outcomeId, toJson outcome⟩] }

def addProgress (ledger : Ledger) (record : ProgressRecord) (ticket : Ticket) : Ledger :=
  { ledger with
    progressRecords := ledger.progressRecords ++ [⟨record.requestId, ticket.fingerprint,
      record.sessionId, record.cycleId, toJson record⟩] }

def addDecision (ledger : Ledger) (row : DecisionRow) : Ledger :=
  { ledger with authorizationDecisions := ledger.authorizationDecisions ++ [row] }

def addEffect (ledger : Ledger) (row : EffectRow) : Ledger :=
  { ledger with effectJobs := ledger.effectJobs ++ [row] }

def setClaims (ledger : Ledger) (claims : List ClaimRow) : Ledger :=
  { ledger with engineerClaims := claims }

def setEffects (ledger : Ledger) (p : EffectRow → Bool) (f : EffectRow → EffectRow) : Ledger :=
  { ledger with effectJobs := Table.updateWhere p f ledger.effectJobs }

end Ledger

/-- The claims a recorded action leaves: unchanged unless it spawns an engineer,
whose claim is added, in the place of a dead one if the key was taken. -/
inductive ClaimsAfter (env : Ambient) (claims : List ClaimRow) (outcome : TerminalOutcome) :
    Action → List ClaimRow → Prop where
  | unchanged (h : ∀ spawn, action ≠ .spawnEngineer spawn) :
      ClaimsAfter env claims outcome action claims
  | added (hkey : ∀ old ∈ claims, old.claimKey ≠ spawn.claimKey)
      (houtcome : ∀ old ∈ claims, old.outcomeId ≠ outcome.outcomeId) :
      ClaimsAfter env claims outcome (.spawnEngineer spawn)
        (claims ++ [⟨spawn.claimKey, outcome.outcomeId, outcome.requestId⟩])
  | reclaimed (hdead : claimIsLive env spawn.claimKey = false)
      (houtcome : ∀ old ∈ claims, old.claimKey ≠ spawn.claimKey →
        old.outcomeId ≠ outcome.outcomeId) :
      ClaimsAfter env claims outcome (.spawnEngineer spawn)
        (Table.deleteWhere (·.claimKey = spawn.claimKey) claims ++
          [⟨spawn.claimKey, outcome.outcomeId, outcome.requestId⟩])

def Ledger.admitsTerminal (ledger : Ledger) (outcome : TerminalOutcome) : Prop :=
  ∀ old ∈ ledger.terminalOutcomes, old.requestId ≠ outcome.requestId ∧
    old.outcomeId ≠ outcome.outcomeId ∧
    ¬(old.sessionId = outcome.sessionId ∧ old.cycleId = outcome.cycleId)

def Ledger.admitsEffect (ledger : Ledger) (row : EffectRow) : Prop :=
  ∀ old ∈ ledger.effectJobs, old.effectId ≠ row.effectId ∧ old.outcomeId ≠ row.outcomeId

def Ledger.cycleOpen (ledger : Ledger) (sessionId cycleId : String) : Prop :=
  ∀ row ∈ ledger.terminalOutcomes, ¬(row.sessionId = sessionId ∧ row.cycleId = cycleId)

/-- Which mutation a lease holder asks for: the row it makes and the plan it
passed. -/
inductive LeasedChange (policy : CapabilityPolicy) :
    Call → EffectJob → LeasePlan → (EffectRow → EffectRow) → Prop where
  | renew (hplan : renewPlan policy lease requestId now extension = .ok (plan, expiresAt)) :
      LeasedChange policy (.renewEffect lease requestId now extension) lease plan
        (·.renewed expiresAt)
  | retry (hplan : retryPlan policy lease requestId now error = .ok plan) :
      LeasedChange policy (.releaseEffectForRetry lease requestId now error) lease plan
        (·.released error)
  | finish (hplan : finishPlan policy lease requestId now result = .ok plan) :
      LeasedChange policy (.finishEffect lease requestId now result) lease plan
        (·.finished result)

/-- Which pending row a claim selects. -/
inductive Selects (policy : CapabilityPolicy) (ledger : Ledger) :
    Call → Ticket → String → Int → (EffectRow → Bool) → Prop where
  | next (hplan : claimNextPlan policy worker requestId now lease = .ok (ticket, expiresAt)) :
      Selects policy ledger (.claimNextEffect worker requestId now lease) ticket worker expiresAt
        fun row => (ledger.effectJobs.find? (·.state = .pending)).any
          fun first => row.effectId = first.effectId
  | forOutcome (hplan : claimForOutcomePlan policy outcomeId worker requestId now lease =
        .ok (ticket, expiresAt)) :
      Selects policy ledger (.claimEffectForOutcome outcomeId worker requestId now lease) ticket
        worker expiresAt fun row => row.outcomeId = outcomeId

/-- The row a block applies to: under the snapshot's lease if the snapshot says it
runs, else pending. -/
def blockable (env : Ambient) (job : EffectJob) (row : EffectRow) : Bool :=
  if job.state = .running then
    job.leaseOwner.any fun owner => row.leasedTo job owner (env.nowMillis 1)
  else row.effectId = job.effectId && row.state = .pending

inductive Commit (policy : CapabilityPolicy) (env : Ambient) (ledger : Ledger) :
    Call → Ledger → Prop where
  | session
      (hplan : registerPlan policy actor requestId cycleId goalId ttl = .ok plan)
      (hfree : ledger.request plan.ticket.requestId = none)
      (hscope : (loadActorBinding (ledger.deleteExpiredSessions (env.nowMillis 0))
        actor.sessionId).all fun existing => existing.scopeKey = plan.binding.scopeKey) :
      Commit policy env ledger (.registerActorSession actor requestId cycleId goalId ttl)
        (((ledger.deleteExpiredSessions (env.nowMillis 0)).upsertSession
          (plan.binding.row actor.sessionId (sha256Hex (utf8 (env.uuid 0).toList))
            (saturatingAdd (env.nowMillis 1) plan.ttlMillis))).record plan.ticket
          (toJson (ActorSessionLease.mk (env.uuid 0)
            (saturatingAdd (env.nowMillis 1) plan.ttlMillis))))
  | purge : Commit policy env ledger .purgeActorSessions { ledger with actorSessions := [] }
  | release :
      Commit policy env ledger (.releaseEngineerClaim claimKey) (ledger.deleteClaim claimKey)
  | approval
      (hplan : approvalPlan policy authority requestId effectId = .ok ticket)
      (hfree : ledger.request ticket.requestId = none)
      (hdraft : draftApproval env authority effectId ledger = .ok approval)
      (hnew : ∀ old ∈ ledger.authorizationDecisions, old.decisionId ≠ approval.approvalId) :
      Commit policy env ledger (.issuePrivilegedApproval authority requestId effectId)
        (((ledger.addDecision ⟨approval.approvalId, approval.effectId, .approved, toJson approval,
          approval.issuedAtUnixMillis⟩).setEffects
            (fun row => row.effectId = approval.effectId && row.state = .blocked)
            EffectRow.unblocked).record ticket (toJson approval))
  | terminal
      (hticket : call.ticket policy env = some (.ok ticket))
      (htype : ticket.mutationType = .terminal)
      (hid : ticket.requestId = outcome.requestId)
      (hpayload : outcome.payload.action? = none)
      (hfree : ledger.request ticket.requestId = none)
      (hnew : ledger.admitsTerminal outcome) :
      Commit policy env ledger call
        ((ledger.addTerminal outcome ticket).record ticket (toJson outcome))
  | action
      (hplan : recordActionPlan policy env.observeOnlyEnabled actor request =
        .ok (.granted ticket))
      (hfree : ledger.request ticket.requestId = none)
      (hkey : checkClaimKey request.identity request.action = .ok ())
      (hadmitted : admitAction policy request.action admission = .ok ())
      (hnew : ledger.admitsTerminal (actionOutcome env actor request admission))
      (hclaims : ClaimsAfter env ledger.engineerClaims
        (actionOutcome env actor request admission) request.action claims)
      (heffect : ledger.admitsEffect
        (newEffect (env.uuid 1) (actionOutcome env actor request admission) request.action)) :
      Commit policy env ledger (.recordAction actor request admission)
        ((((ledger.addTerminal (actionOutcome env actor request admission) ticket).record ticket
          (toJson (actionOutcome env actor request admission))).setClaims claims).addEffect
            (newEffect (env.uuid 1) (actionOutcome env actor request admission) request.action))
  | progress
      (hplan : recordProgressPlan policy actor request = .ok ticket)
      (hfree : ledger.request ticket.requestId = none)
      (hopen : ledger.cycleOpen request.identity.sessionId request.identity.cycleId) :
      Commit policy env ledger (.recordProgress actor request)
        ((ledger.addProgress (newProgress env actor request) ticket).record ticket
          (toJson (newProgress env actor request)))
  | claim
      (hselects : Selects policy ledger call ticket worker expiresAt selected)
      (hfree : ledger.request ticket.requestId = none)
      (hread : queryEffect
          (ledger.setEffects (fun row => selected row && row.state = .pending)
            (·.claimed worker expiresAt))
          ((ledger.effectJobs.find? fun row => selected row && row.state = .pending).map
            (·.claimed worker expiresAt)) = .ok claimed) :
      Commit policy env ledger call
        ((ledger.setEffects (fun row => selected row && row.state = .pending)
          (·.claimed worker expiresAt)).record ticket (toJson claimed))
  | recover
      (hplan : recoverPlan policy requestId time = .ok (ticket, now))
      (hfree : ledger.request ticket.requestId = none) :
      Commit policy env ledger (.recoverExpiredEffects requestId time)
        ((ledger.setEffects (·.expiredBy now) EffectRow.recovered).record ticket
          (toJson (ledger.effectJobs.countP (·.expiredBy now))))
  | leased
      (hchange : LeasedChange policy call lease plan f)
      (hfree : ledger.request plan.ticket.requestId = none)
      (hone : ledger.effectJobs.countP (·.leasedTo lease plan.owner plan.now) = 1) :
      Commit policy env ledger call
        ((ledger.setEffects (·.leasedTo lease plan.owner plan.now) f).record plan.ticket result)
  | block
      (hplan : blockPlan policy job requestId reason = .ok ticket)
      (hfree : ledger.request ticket.requestId = none)
      (hnew : ∀ old ∈ ledger.authorizationDecisions, old.decisionId ≠ env.uuid 0)
      (hone : ledger.effectJobs.countP (blockable env job) = 1) :
      Commit policy env ledger (.blockEffectAuthorization job requestId reason)
        (((ledger.addDecision (blockDecision env job reason)).setEffects (blockable env job)
          (·.blockedFor reason)).record ticket .null)
  | reserve
      (hplan : processExecPlan policy env actor request = .ok ticket)
      (hfree : ledger.request ticket.requestId = none)
      (hslot : reserveProcessSlot ledger request.scope policy.processExecMutationsPerCycle =
        .ok reserved)
      (hnew : ∀ old ∈ ledger.processExecutions, old.executionId ≠ env.uuid 0 ∧
        old.requestId ≠ request.identity.requestId) :
      Commit policy env ledger (.reserveProcessExecution actor request)
        (({ reserved with
          processExecutions := ledger.processExecutions ++
            [processRow request (newProcessExecution env request) ticket.fingerprint] }).record
          ticket (toJson (newProcessExecution env request)))
  | update {expected : ProcessExecutionStatus} {record : ProcessExecutionRecord}
      (hone : ledger.processExecutions.countP (fun row =>
        row.executionId = record.executionId && row.status = expected) = 1) :
      Commit policy env ledger (.updateProcessExecution record expected)
        { ledger with
          processExecutions := Table.updateWhere
            (fun row => row.executionId = record.executionId && row.status = expected)
            (·.moved record) ledger.processExecutions
          mutationRequests := Table.updateWhere (·.requestId = record.requestId)
            (·.withResult (toJson record)) ledger.mutationRequests }

section Inversion

variable {policy : CapabilityPolicy} {env : Ambient} {ledger after : Ledger}

theorem changeOne_eq_ok {effectId : String} {p : EffectRow → Bool} {f : EffectRow → EffectRow} :
    changeOne ledger effectId p f = .ok after ↔
      ledger.effectJobs.countP p = 1 ∧ after = ledger.setEffects p f := by
  unfold changeOne Ledger.updateEffects
  by_cases h : ledger.effectJobs.countP p = 1
  · simp [h, Ledger.setEffects, eq_comm]
  · simp [h]

theorem recordRequest_record {ticket : Ticket} {result : Json} :
    recordRequest ledger ticket result = .ok after ↔
      ledger.request ticket.requestId = none ∧ after = ledger.record ticket result :=
  recordRequest_eq_ok

theorem registerPlan_eq_ok {actor : AuthenticatedToolContext} {requestId cycleId goalId : String}
    {ttl : Duration} {plan : SessionPlan}
    (h : registerPlan policy actor requestId cycleId goalId ttl = .ok plan) :
    ∃ repository, actor.boundRepository = some repository ∧
      plan = ⟨⟨requestId, .actorSession, canonicalRequest actor policy.revision
        (.arr [.str "actor_session_v1", toJson cycleId, toJson goalId,
          toJson ((ttl / 1000000 : Nat) : Int)])⟩,
        .new actor cycleId goalId repository, (ttl / 1000000 : Nat)⟩ := by
  unfold registerPlan at h
  iterate 5
    obtain ⟨-, -, h⟩ := bind_eq_ok.mp h
  cases hrepository : actor.boundRepository with
  | none => simp [hrepository] at h
  | some repository =>
    simp only [hrepository] at h
    -- the target check is either way followed by the same steps
    split at h
    · simp only [bind_eq_ok] at h
      obtain ⟨-, -, -, -, millis, hmillis, -, -, h⟩ := h
      obtain rfl := durationMillis_eq_ok hmillis
      cases h
      exact ⟨repository, rfl, rfl⟩
    · simp only [bind_eq_ok] at h
      obtain ⟨-, -, -, -, millis, hmillis, -, -, h⟩ := h
      obtain rfl := durationMillis_eq_ok hmillis
      cases h
      exact ⟨repository, rfl, rfl⟩
    · cases h

theorem registerActorSession_commit {actor : AuthenticatedToolContext}
    {requestId cycleId goalId : String} {ttl : Duration} {lease : ActorSessionLease}
    (h : registerActorSession policy env actor requestId cycleId goalId ttl ledger =
      .ok (lease, after)) :
    after = ledger ∨ Commit policy env ledger
      (.registerActorSession actor requestId cycleId goalId ttl) after := by
  unfold registerActorSession at h
  obtain ⟨plan, hplan, h⟩ := bind_eq_ok.mp h
  rcases once_eq_ok h with ⟨rfl, -⟩ | ⟨hfree, h⟩
  · exact .inl rfl
  · simp only [bind_eq_ok, ensure_eq_ok, recordRequest_record] at h
    obtain ⟨-, hscope, -, ⟨-, rfl⟩, hresult⟩ := h
    cases hresult
    exact .inr (.session hplan hfree hscope)

theorem issuePrivilegedApproval_commit {authority : ApprovalAuthority}
    {requestId effectId : String} {approval : PrivilegedApproval}
    (h : issuePrivilegedApproval policy env authority requestId effectId ledger =
      .ok (approval, after)) :
    after = ledger ∨ Commit policy env ledger
      (.issuePrivilegedApproval authority requestId effectId) after := by
  unfold issuePrivilegedApproval at h
  obtain ⟨ticket, hplan, h⟩ := bind_eq_ok.mp h
  rcases once_eq_ok h with ⟨rfl, -⟩ | ⟨hfree, h⟩
  · exact .inl rfl
  · simp only [bind_eq_ok, persist_eq_ok, Ledger.insertDecision_eq_ok, Ledger.updateEffects,
      recordRequest_record] at h
    obtain ⟨draft, hdraft, -, ⟨hnew, -, rfl⟩, -, ⟨-, rfl⟩, hresult⟩ := h
    cases hresult
    exact .inr (.approval hplan hfree hdraft hnew)

theorem insertOutcome_eq_ok {outcome : TerminalOutcome} {ticket : Ticket} :
    insertOutcome ledger outcome ticket = .ok after ↔
      ledger.admitsTerminal outcome ∧ ledger.request ticket.requestId = none ∧
        after = (ledger.addTerminal outcome ticket).record ticket (toJson outcome) := by
  unfold insertOutcome
  simp only [bind_eq_ok, persist_eq_ok, Ledger.insertTerminal_eq_ok, recordRequest_record]
  constructor
  · rintro ⟨-, ⟨hnew, rfl⟩, hfree, rfl⟩
    exact ⟨hnew, hfree, rfl⟩
  · rintro ⟨hnew, hfree, rfl⟩
    exact ⟨_, ⟨hnew, rfl⟩, hfree, rfl⟩

theorem commitTerminal_commit {call : Call} {actor : AuthenticatedToolContext}
    {identity : TerminalRequestIdentity} {payload : TypedOutcomePayload}
    {rawSemantic : OpaqueBytes} {evidence : List EvidenceRef} {ticket : Ticket}
    {outcome : TerminalOutcome} (hticket : call.ticket policy env = some (.ok ticket))
    (htype : ticket.mutationType = .terminal) (hid : ticket.requestId = identity.requestId)
    (hpayload : payload.action? = none)
    (h : commitTerminal env actor identity payload rawSemantic evidence ticket ledger =
      .ok (outcome, after)) : after = ledger ∨ Commit policy env ledger call after := by
  rcases once_eq_ok h with ⟨rfl, -⟩ | ⟨hfree, h⟩
  · exact .inl rfl
  · simp only [bind_eq_ok, insertOutcome_eq_ok] at h
    obtain ⟨-, -, -, ⟨hnew, -, rfl⟩, hresult⟩ := h
    cases hresult
    exact .inr (.terminal hticket htype hid hpayload hfree hnew)

theorem recordNoAction_commit {actor : AuthenticatedToolContext}
    {request : RecordNoActionRequest} {outcome : TerminalOutcome}
    (h : recordNoAction policy env actor request ledger = .ok (outcome, after)) :
    after = ledger ∨ Commit policy env ledger (.recordNoAction actor request) after := by
  unfold recordNoAction at h
  obtain ⟨ticket, hplan, h⟩ := bind_eq_ok.mp h
  have hticket : ticket = terminalTicket policy actor request.identity (toJson request) := by
    simp only [recordNoActionPlan, bind_eq_ok] at hplan
    grind
  subst hticket
  exact commitTerminal_commit (congrArg some hplan) rfl rfl rfl h

theorem recordBlocked_commit {actor : AuthenticatedToolContext}
    {request : RecordBlockedRequest} {outcome : TerminalOutcome}
    (h : recordBlocked policy env actor request ledger = .ok (outcome, after)) :
    after = ledger ∨ Commit policy env ledger (.recordBlocked actor request) after := by
  unfold recordBlocked at h
  obtain ⟨ticket, hplan, h⟩ := bind_eq_ok.mp h
  have hticket : ticket = terminalTicket policy actor request.identity (toJson request) := by
    simp only [recordBlockedPlan, bind_eq_ok] at hplan
    grind
  subst hticket
  exact commitTerminal_commit (congrArg some hplan) rfl rfl rfl h

theorem recordCompleted_commit {actor : AuthenticatedToolContext}
    {request : RecordCompletedRequest} {outcome : TerminalOutcome}
    (h : recordCompleted policy env actor request ledger = .ok (outcome, after)) :
    after = ledger ∨ Commit policy env ledger (.recordCompleted actor request) after := by
  unfold recordCompleted at h
  obtain ⟨ticket, hplan, h⟩ := bind_eq_ok.mp h
  have hticket : ticket = terminalTicket policy actor request.identity (toJson request) := by
    simp only [recordCompletedPlan, bind_eq_ok] at hplan
    grind
  subst hticket
  exact commitTerminal_commit (congrArg some hplan) rfl rfl rfl h

theorem recordActionPlan_cases {actor : AuthenticatedToolContext}
    {request : RecordActionRequest} {observeOnlyEnabled : Bool} {plan : ActionPlan}
    (h : recordActionPlan policy observeOnlyEnabled actor request = .ok plan) :
    plan = .granted (terminalTicket policy actor request.identity (toJson request)) ∨
      ∃ payload, payload.action? = none ∧
        plan = .denied (terminalTicket policy actor request.identity
          (refusalDocument (.recordAction request.action.kind) request observeOnlyEnabled))
          payload := by
  have hdenied {plan : ActionPlan}
      (h : recordActionDenied policy observeOnlyEnabled actor request
        (.recordAction request.action.kind) = .ok plan) :
      ∃ payload, payload.action? = none ∧
        plan = .denied (terminalTicket policy actor request.identity
          (refusalDocument (.recordAction request.action.kind) request observeOnlyEnabled))
          payload := by
    simp only [recordActionDenied, bind_eq_ok] at h
    obtain ⟨-, -, h⟩ := h
    cases h
    exact ⟨_, rfl, rfl⟩
  have horDenied {check : CapabilityResult Unit} {denied next : CapabilityResult ActionPlan}
      (h : orDenied check denied next = .ok plan) : denied = .ok plan ∨ next = .ok plan := by
    unfold orDenied at h
    grind
  unfold recordActionPlan at h
  obtain ⟨-, -, h⟩ := bind_eq_ok.mp h
  simp only at h
  split at h
  · exact .inr (hdenied h)
  · obtain ⟨-, -, h⟩ := bind_eq_ok.mp h
    rcases horDenied h with h | h
    · exact .inr (hdenied h)
    · simp only [bind_eq_ok] at h
      obtain ⟨-, -, -, -, h⟩ := h
      rcases horDenied h with h | h
      · exact .inr (hdenied h)
      · cases h
        exact .inl rfl

theorem recordActionPlan_granted {actor : AuthenticatedToolContext}
    {request : RecordActionRequest} {observeOnlyEnabled : Bool} {ticket : Ticket}
    (h : recordActionPlan policy observeOnlyEnabled actor request = .ok (.granted ticket)) :
    ticket = terminalTicket policy actor request.identity (toJson request) := by
  rcases recordActionPlan_cases h with hplan | ⟨payload, -, hplan⟩
  · cases hplan
    rfl
  · cases hplan

theorem insertEngineerClaim_eq_ok {spawn : SpawnEngineerAction} {outcome : TerminalOutcome}
    (h : insertEngineerClaim env ledger ⟨spawn.claimKey, outcome.outcomeId, outcome.requestId⟩ =
      .ok after) :
    ∃ claims, ClaimsAfter env ledger.engineerClaims outcome (.spawnEngineer spawn) claims ∧
      after = ledger.setClaims claims := by
  unfold insertEngineerClaim at h
  split at h
  next inserted hinsert =>
    cases h
    obtain ⟨hnew, -, rfl⟩ := Ledger.insertClaim_eq_ok.mp hinsert
    exact ⟨_, .added (fun old hold => (hnew old hold).1) (fun old hold => (hnew old hold).2), rfl⟩
  next error hinsert =>
    by_cases hconstraint : isConstraint error
    · rw [if_pos hconstraint] at h
      by_cases hlive : claimIsLive env spawn.claimKey
      · simp [hlive] at h
      · simp only [hlive, Bool.false_eq_true, if_false, mapError_eq_ok] at h
        obtain ⟨hnew, -, rfl⟩ := Ledger.insertClaim_eq_ok.mp h
        refine ⟨_, .reclaimed (by simpa using hlive) ?_, rfl⟩
        intro old hold hkey
        exact (hnew old (Table.mem_deleteWhere.mpr ⟨hold, by simpa using hkey⟩)).2
    · simp [hconstraint] at h

theorem insertActionClaim_eq_ok {outcome : TerminalOutcome} {action : Action}
    (h : insertActionClaim env ledger outcome action = .ok after) :
    ∃ claims, ClaimsAfter env ledger.engineerClaims outcome action claims ∧
      after = ledger.setClaims claims := by
  cases action with
  | spawnEngineer spawn => exact insertEngineerClaim_eq_ok h
  | _ =>
    cases h
    exact ⟨_, .unchanged (fun _ hspawn => nomatch hspawn), rfl⟩

theorem recordGranted_commit {actor : AuthenticatedToolContext} {request : RecordActionRequest}
    {admission : AdmissionSnapshot} {ticket : Ticket} {outcome : TerminalOutcome}
    (hplan : recordActionPlan policy env.observeOnlyEnabled actor request = .ok (.granted ticket))
    (h : recordGranted policy env actor request admission ticket ledger = .ok (outcome, after)) :
    after = ledger ∨ Commit policy env ledger (.recordAction actor request admission) after := by
  rcases once_eq_ok h with ⟨rfl, -⟩ | ⟨hfree, h⟩
  · exact .inl rfl
  · simp only [bind_eq_ok, insertOutcome_eq_ok, insertEffect, persist_eq_ok,
      Ledger.insertEffectJob_eq_ok] at h
    obtain ⟨_, hkey, _, hadmitted, -, -, -, ⟨hnew, -, rfl⟩, claimed, hclaim, -,
      ⟨heffect, -, rfl⟩, hresult⟩ := h
    obtain ⟨claims, hclaims, rfl⟩ := insertActionClaim_eq_ok hclaim
    cases hresult
    exact .inr (.action hplan hfree hkey hadmitted hnew hclaims heffect)

theorem recordAction_commit {actor : AuthenticatedToolContext} {request : RecordActionRequest}
    {admission : AdmissionSnapshot} {outcome : TerminalOutcome}
    (h : recordAction policy env actor request admission ledger = .ok (outcome, after)) :
    after = ledger ∨ Commit policy env ledger (.recordAction actor request admission) after := by
  unfold recordAction at h
  obtain ⟨plan, hplan, h⟩ := bind_eq_ok.mp h
  rcases recordActionPlan_cases hplan with rfl | ⟨payload, hpayload, rfl⟩
  · exact recordGranted_commit hplan h
  · have hticket : (Call.recordAction actor request admission).ticket policy env =
        some (.ok (terminalTicket policy actor request.identity (refusalDocument
          (.recordAction request.action.kind) request env.observeOnlyEnabled))) := by
      simp only [Call.ticket, hplan]
      rfl
    exact commitTerminal_commit hticket rfl rfl hpayload h

theorem recordProgress_commit {actor : AuthenticatedToolContext}
    {request : RecordProgressRequest} {record : ProgressRecord}
    (h : recordProgress policy env actor request ledger = .ok (record, after)) :
    after = ledger ∨ Commit policy env ledger (.recordProgress actor request) after := by
  unfold recordProgress at h
  obtain ⟨ticket, hplan, h⟩ := bind_eq_ok.mp h
  rcases once_eq_ok h with ⟨rfl, -⟩ | ⟨hfree, h⟩
  · exact .inl rfl
  · simp only [bind_eq_ok, ensureCycleOpen, ensure_eq_ok, persist_eq_ok,
      Ledger.insertProgress_eq_ok, recordRequest_record] at h
    obtain ⟨-, hopen, -, ⟨-, rfl⟩, -, ⟨-, rfl⟩, hresult⟩ := h
    cases hresult
    refine .inr (.progress hplan hfree ?_)
    simpa [Ledger.cycleOpen] using hopen

theorem claimWhere_commit {call : Call} {ticket : Ticket} {worker : String} {expiresAt : Int}
    {selected : EffectRow → Bool} {claimed : Option EffectJob}
    (hselects : Selects policy ledger call ticket worker expiresAt selected)
    (h : claimWhere ledger ticket worker expiresAt selected = .ok (claimed, after)) :
    after = ledger ∨ Commit policy env ledger call after := by
  rcases once_eq_ok h with ⟨rfl, -⟩ | ⟨hfree, h⟩
  · exact .inl rfl
  · simp only [Ledger.updateEffects, bind_eq_ok, recordRequest_record] at h
    obtain ⟨job, hread, -, ⟨-, rfl⟩, hresult⟩ := h
    cases hresult
    exact .inr (.claim hselects hfree hread)

theorem recoverExpiredEffects_commit {requestId : String} {now : SystemTime} {recovered : Nat}
    (h : recoverExpiredEffects policy requestId now ledger = .ok (recovered, after)) :
    after = ledger ∨ Commit policy env ledger (.recoverExpiredEffects requestId now) after := by
  unfold recoverExpiredEffects at h
  obtain ⟨⟨ticket, millis⟩, hplan, h⟩ := bind_eq_ok.mp h
  rcases once_eq_ok h with ⟨rfl, -⟩ | ⟨hfree, h⟩
  · exact .inl rfl
  · simp only [Ledger.updateEffects, bind_eq_ok, recordRequest_record] at h
    obtain ⟨-, ⟨-, rfl⟩, hresult⟩ := h
    cases hresult
    exact .inr (.recover hplan hfree)

theorem changeLeased_commit {α : Type} [Serde α] {call : Call} {lease : EffectJob}
    {plan : LeasePlan} {result : α} {f : EffectRow → EffectRow}
    (hchange : LeasedChange policy call lease plan f)
    (h : changeLeased α ledger lease plan result f = .ok ((), after)) :
    after = ledger ∨ Commit policy env ledger call after := by
  rcases once_eq_ok h with ⟨rfl, -⟩ | ⟨hfree, h⟩
  · exact .inl rfl
  · simp only [bind_eq_ok, changeOne_eq_ok, recordRequest_record] at h
    obtain ⟨-, -, -, ⟨hone, rfl⟩, -, ⟨-, rfl⟩, hresult⟩ := h
    cases hresult
    exact .inr (.leased hchange hfree hone)

theorem blockRow_eq_ok {job : EffectJob} {reason : String}
    (h : blockRow env job reason ledger = .ok after) :
    ledger.effectJobs.countP (blockable env job) = 1 ∧
      after = ledger.setEffects (blockable env job) (·.blockedFor reason) := by
  unfold blockRow at h
  by_cases hrunning : job.state = .running
  · rw [if_pos hrunning] at h
    obtain ⟨owner, howner, h⟩ := bind_eq_ok.mp h
    obtain ⟨-, -, h⟩ := bind_eq_ok.mp h
    have hjob := effectLeaseOwner_eq_ok howner
    have hblockable : blockable env job = (·.leasedTo job owner (env.nowMillis 1)) := by
      funext row
      simp [blockable, hrunning, hjob]
    rw [hblockable]
    exact changeOne_eq_ok.mp h
  · rw [if_neg hrunning] at h
    have hblockable : blockable env job =
        fun row => row.effectId = job.effectId && row.state = .pending := by
      funext row
      simp [blockable, hrunning]
    rw [hblockable]
    exact changeOne_eq_ok.mp h

theorem blockEffectAuthorization_commit {job : EffectJob} {requestId reason : String}
    (h : blockEffectAuthorization policy env job requestId reason ledger = .ok ((), after)) :
    after = ledger ∨
      Commit policy env ledger (.blockEffectAuthorization job requestId reason) after := by
  unfold blockEffectAuthorization at h
  obtain ⟨ticket, hplan, h⟩ := bind_eq_ok.mp h
  rcases once_eq_ok h with ⟨rfl, -⟩ | ⟨hfree, h⟩
  · exact .inl rfl
  · simp only [bind_eq_ok, persist_eq_ok, Ledger.insertDecision_eq_ok, recordRequest_record] at h
    obtain ⟨-, ⟨hnew, -, rfl⟩, updated, hblock, -, ⟨-, rfl⟩, hresult⟩ := h
    obtain ⟨hone, rfl⟩ := blockRow_eq_ok hblock
    cases hresult
    exact .inr (.block hplan hfree hnew hone)

theorem reserveProcessSlot_frame {scope : Scope} {limit : Nat}
    (h : reserveProcessSlot ledger scope limit = .ok after) :
    after = { ledger with mutationScopeCounters := after.mutationScopeCounters } := by
  unfold reserveProcessSlot at h
  obtain ⟨limit, -, h⟩ := bind_eq_ok.mp h
  split at h
  · split at h
    · cases h
    · cases h
      rfl
  · split at h
    · cases h
      rfl
    · cases h

theorem reserveProcessExecution_commit {actor : AuthenticatedToolContext}
    {request : ProcessExecRequest} {result : ProcessExecutionRecord × Bool}
    (h : reserveProcessExecution policy env actor request ledger = .ok (result, after)) :
    after = ledger ∨ Commit policy env ledger (.reserveProcessExecution actor request) after := by
  unfold reserveProcessExecution at h
  obtain ⟨ticket, hplan, h⟩ := bind_eq_ok.mp h
  rcases once_eq_ok h with ⟨rfl, -⟩ | ⟨hfree, h⟩
  · exact .inl rfl
  · simp only [bind_eq_ok, persist_eq_ok, Ledger.insertProcess_eq_ok, recordRequest_record] at h
    obtain ⟨reserved, hslot, -, ⟨hnew, rfl⟩, -, ⟨-, rfl⟩, hresult⟩ := h
    have hrows : reserved.processExecutions = ledger.processExecutions := by
      rw [reserveProcessSlot_frame hslot]
    rw [hrows] at hnew hresult
    cases hresult
    exact .inr (.reserve hplan hfree hslot hnew)

theorem updateProcessExecution_commit {record : ProcessExecutionRecord}
    {expected : ProcessExecutionStatus}
    (h : updateProcessExecution record expected ledger = .ok ((), after)) :
    after = ledger ∨
      Commit policy env ledger (.updateProcessExecution record expected) after := by
  unfold updateProcessExecution at h
  simp only at h
  split at h
  next hone =>
    cases h
    exact .inr (.update hone)
  next => cases h

theorem perform_commit {call : Call} {result : call.Result}
    (h : perform policy env ledger call = .ok (result, after)) :
    after = ledger ∨ Commit policy env ledger call after := by
  cases call with
  | registerActorSession => exact registerActorSession_commit h
  | authenticateActorSession => exact .inl (reading_eq_ok h).2
  | purgeActorSessions =>
    cases h
    exact .inr .purge
  | releaseEngineerClaim =>
    cases h
    exact .inr .release
  | issuePrivilegedApproval => exact issuePrivilegedApproval_commit h
  | recordAction => exact recordAction_commit h
  | recordNoAction => exact recordNoAction_commit h
  | recordBlocked => exact recordBlocked_commit h
  | recordCompleted => exact recordCompleted_commit h
  | recordProgress => exact recordProgress_commit h
  | effectForOutcome => exact .inl (reading_eq_ok h).2
  | claimNextEffect =>
    obtain ⟨⟨ticket, expiresAt⟩, hplan, h⟩ := bind_eq_ok.mp h
    exact claimWhere_commit (.next hplan) h
  | claimEffectForOutcome =>
    obtain ⟨⟨ticket, expiresAt⟩, hplan, h⟩ := bind_eq_ok.mp h
    exact claimWhere_commit (.forOutcome hplan) h
  | recoverExpiredEffects => exact recoverExpiredEffects_commit h
  | renewEffect =>
    obtain ⟨⟨plan, expiresAt⟩, hplan, h⟩ := bind_eq_ok.mp h
    exact changeLeased_commit (.renew hplan) h
  | blockEffectAuthorization => exact blockEffectAuthorization_commit h
  | releaseEffectForRetry =>
    obtain ⟨plan, hplan, h⟩ := bind_eq_ok.mp h
    exact changeLeased_commit (.retry hplan) h
  | finishEffect =>
    obtain ⟨plan, hplan, h⟩ := bind_eq_ok.mp h
    exact changeLeased_commit (.finish hplan) h
  | reserveProcessExecution => exact reserveProcessExecution_commit h
  | updateProcessExecution => exact updateProcessExecution_commit h

theorem commit_request {call : Call} {requestId : String} {row : MutationRow}
    (hcommit : Commit policy env ledger call after) (h : ledger.request requestId = some row) :
    ∃ row', after.request requestId = some row' ∧ (row' = row ∨
      ∃ record expected, call = .updateProcessExecution record expected ∧
        record.requestId = requestId ∧ row' = row.withResult (toJson record)) := by
  have happend (ticket : Ticket) (result : Json) :
      Table.lookup MutationRow.requestId requestId
        (ledger.mutationRequests ++ [ticket.row result]) = some row :=
    Table.lookup_append_of_some h
  cases hcommit with
  | session => exact ⟨row, happend _ _, .inl rfl⟩
  | purge => exact ⟨row, h, .inl rfl⟩
  | release => exact ⟨row, h, .inl rfl⟩
  | approval => exact ⟨row, happend _ _, .inl rfl⟩
  | terminal => exact ⟨row, happend _ _, .inl rfl⟩
  | action => exact ⟨row, happend _ _, .inl rfl⟩
  | progress => exact ⟨row, happend _ _, .inl rfl⟩
  | claim => exact ⟨row, happend _ _, .inl rfl⟩
  | recover => exact ⟨row, happend _ _, .inl rfl⟩
  | leased => exact ⟨row, happend _ _, .inl rfl⟩
  | block => exact ⟨row, happend _ _, .inl rfl⟩
  | reserve hplan hfree hslot hnew =>
    rw [reserveProcessSlot_frame hslot]
    exact ⟨row, happend _ _, .inl rfl⟩
  | @update expected record hone =>
    have hkeep (row : MutationRow) : (row.withResult (toJson record)).requestId = row.requestId :=
      rfl
    refine ⟨if row.requestId = record.requestId then row.withResult (toJson record) else row,
      ?_, ?_⟩
    · unfold Ledger.request at *
      rw [Table.lookup_updateWhere hkeep, h]
      simp
    · obtain ⟨-, hid⟩ := Table.lookup_mem h
      by_cases hrecord : row.requestId = record.requestId
      · rw [if_pos hrecord]
        exact .inr ⟨record, expected, rfl, hrecord.symm.trans hid, rfl⟩
      · rw [if_neg hrecord]
        exact .inl rfl

theorem commit_cases (policy : CapabilityPolicy) (env : Ambient) (ledger : Ledger) (call : Call) :
    commit policy env ledger call = ledger ∨
      Commit policy env ledger call (commit policy env ledger call) := by
  unfold commit
  cases h : perform policy env ledger call with
  | error e => exact .inl rfl
  | ok value => exact perform_commit h

end Inversion

end Simard.TypedOoda
