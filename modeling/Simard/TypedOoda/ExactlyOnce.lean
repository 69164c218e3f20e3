import Simard.TypedOoda.ProcessRuns

/-! The request registry makes every mutation happen once. What a request is to
the registry is the data its fingerprint covers; a recorded request is answered
with the stored result however the ledger has moved on, and the same request id
with other data is refused. -/
namespace Simard.TypedOoda
open Simard.Library

/-- The data of a request that its fingerprint covers, the policy revision apart.
Of a lease snapshot this is the effect, the owner and the generation only. -/
inductive Covered where
  | actorSession (actor : AuthenticatedToolContext) (cycleId goalId : String) (ttlMillis : Int)
  | privilegedApproval (principal effectId : String)
  | action (actor : AuthenticatedToolContext) (request : RecordActionRequest)
  | noAction (actor : AuthenticatedToolContext) (request : RecordNoActionRequest)
  | blocked (actor : AuthenticatedToolContext) (request : RecordBlockedRequest)
  | completed (actor : AuthenticatedToolContext) (request : RecordCompletedRequest)
  | progress (actor : AuthenticatedToolContext) (request : RecordProgressRequest)
  | claimNext (worker : String) (leaseMillis : Int)
  | claimForOutcome (outcomeId worker : String) (leaseMillis : Int)
  | recovery (nowMillis : Int)
  | renew (effectId : String) (owner : Option String) (generation : Nat) (extensionMillis : Int)
  | block (effectId : String) (owner : Option String) (generation : Nat) (reason : String)
  | retry (effectId : String) (owner : Option String) (generation : Nat) (error : String)
  | finish (effectId : String) (owner : Option String) (generation : Nat) (result : EffectResult)
  | processExec (actor : AuthenticatedToolContext) (request : ProcessExecRequest)

namespace Covered

def mutationType : Covered → MutationType
  | actorSession .. => .actorSession
  | privilegedApproval .. => .privilegedApproval
  | action .. => .terminal
  | noAction .. => .terminal
  | blocked .. => .terminal
  | completed .. => .terminal
  | progress .. => .progress
  | claimNext .. => .effectClaim
  | claimForOutcome .. => .effectClaim
  | recovery _ => .effectRecovery
  | renew .. => .effectRenew
  | block .. => .effectAuthorizationBlock
  | retry .. => .effectRetry
  | finish .. => .effectFinish
  | processExec .. => .processExec

def actor : Covered → AuthenticatedToolContext
  | actorSession actor .. => actor
  | privilegedApproval principal _ => .new principal "privileged-approval" []
  | action actor _ => actor
  | noAction actor _ => actor
  | blocked actor _ => actor
  | completed actor _ => actor
  | progress actor _ => actor
  | claimNext worker _ => claimActor worker
  | claimForOutcome _ worker _ => claimActor worker
  | recovery _ => .new "effect-recovery" "system" []
  | renew effectId .. => .new "effect-worker" ("effect:" ++ effectId) []
  | block effectId .. => .new "effect-worker" ("effect:" ++ effectId) []
  | retry effectId .. => .new "effect-worker" ("effect:" ++ effectId) []
  | finish effectId .. => .new "effect-worker" ("effect:" ++ effectId) []
  | processExec actor _ => actor

/-- The request document. A refused action is fingerprinted as the refusal, which
carries the observe-only flag. -/
def document (refused : Option Bool) : Covered → Json
  | actorSession _ cycleId goalId ttlMillis =>
      .arr [.str "actor_session_v1", toJson cycleId, toJson goalId, toJson ttlMillis]
  | privilegedApproval _ effectId => .arr [.str "privileged_approval_v1", toJson effectId]
  | action _ request =>
      match refused with
      | none => toJson request
      | some observeOnly => refusalDocument (.recordAction request.action.kind) request observeOnly
  | noAction _ request => toJson request
  | blocked _ request => toJson request
  | completed _ request => toJson request
  | progress _ request => toJson request
  | claimNext worker leaseMillis =>
      .arr [.str "claim_next_effect_v1", toJson worker, toJson leaseMillis]
  | claimForOutcome outcomeId worker leaseMillis =>
      .arr [.str "claim_effect_for_outcome_v1", toJson outcomeId, toJson worker,
        toJson leaseMillis]
  | recovery nowMillis => .arr [.str "recover_effects_v1", toJson nowMillis]
  | renew effectId owner generation extensionMillis =>
      .arr [.str "effect_renew_v1", toJson effectId, toJson owner, toJson generation,
        toJson extensionMillis]
  | block effectId owner generation reason =>
      .arr [.str "effect_authorization_block_v1", toJson effectId, toJson owner,
        toJson generation, toJson reason]
  | retry effectId owner generation error =>
      .arr [.str "effect_retry_v1", toJson effectId, toJson owner, toJson generation, toJson error]
  | finish effectId owner generation result =>
      .arr [.str "effect_finish_v1", toJson effectId, toJson owner, toJson generation,
        toJson result]
  | processExec _ request => .arr [.str "process_exec_v1", toJson request]

theorem canonicalRequest_injective {actor actor' : AuthenticatedToolContext}
    {revision revision' : String} {request request' : Json}
    (h : canonicalRequest actor revision request = canonicalRequest actor' revision' request') :
    actor = actor' ∧ revision = revision' ∧ request = request' := by
  simp only [canonicalRequest, Json.arr.injEq, List.cons.injEq, toJson_injective.eq_iff] at h
  obtain ⟨-, -, hidentity, hsession, hgrants, hrepository, hcycle, hgoal, hdirectory, hpermissions,
    hobserve, hrevision, hrequest, -⟩ := h
  cases actor
  cases actor'
  simp only at *
  subst hidentity hsession hgrants hrepository hcycle hgoal hdirectory hpermissions hobserve
  exact ⟨rfl, hrevision, hrequest⟩

theorem eq_of_document {a b : Covered} {refused refused' : Option Bool}
    (htype : a.mutationType = b.mutationType) (hactor : a.actor = b.actor)
    (hdocument : a.document refused = b.document refused') : a = b := by
  cases a <;> cases b <;> cases htype <;>
    simp only [actor, AuthenticatedToolContext.new, AuthenticatedToolContext.mk.injEq] at hactor
  case action.action =>
    cases refused <;> cases refused' <;> simp_all [document, refusalDocument,
      toJson_injective.eq_iff]
  all_goals simp_all [document, refusalDocument, toJson_injective.eq_iff]
  -- left are two different terminals, whose documents have different members
  all_goals
    cases refused <;> cases refused' <;> simp [Serde.toJson] at hdocument

end Covered

def Call.requestId : Call → Option String
  | .registerActorSession _ requestId .. => some requestId
  | .issuePrivilegedApproval _ requestId _ => some requestId
  | .recordAction _ request _ => some request.identity.requestId
  | .recordNoAction _ request => some request.identity.requestId
  | .recordBlocked _ request => some request.identity.requestId
  | .recordCompleted _ request => some request.identity.requestId
  | .recordProgress _ request => some request.identity.requestId
  | .claimNextEffect _ requestId .. => some requestId
  | .claimEffectForOutcome _ _ requestId .. => some requestId
  | .recoverExpiredEffects requestId _ => some requestId
  | .renewEffect _ requestId .. => some requestId
  | .blockEffectAuthorization _ requestId _ => some requestId
  | .releaseEffectForRetry _ requestId .. => some requestId
  | .finishEffect _ requestId .. => some requestId
  | .reserveProcessExecution _ request => some request.identity.requestId
  | _ => none

def Call.covered : Call → Option Covered
  | .registerActorSession actor _ cycleId goalId ttl =>
      some (.actorSession actor cycleId goalId (ttl / 1000000 : Nat))
  | .issuePrivilegedApproval authority _ effectId =>
      some (.privilegedApproval authority.principal effectId)
  | .recordAction actor request _ => some (.action actor request)
  | .recordNoAction actor request => some (.noAction actor request)
  | .recordBlocked actor request => some (.blocked actor request)
  | .recordCompleted actor request => some (.completed actor request)
  | .recordProgress actor request => some (.progress actor request)
  | .claimNextEffect worker _ _ lease => some (.claimNext worker (lease / 1000000 : Nat))
  | .claimEffectForOutcome outcomeId worker _ _ lease =>
      some (.claimForOutcome outcomeId worker (lease / 1000000 : Nat))
  | .recoverExpiredEffects _ now => some (.recovery (now / 1000000))
  | .renewEffect lease _ _ extension =>
      some
        (.renew lease.effectId lease.leaseOwner lease.leaseGeneration (extension / 1000000 : Nat))
  | .blockEffectAuthorization job _ reason =>
      some (.block job.effectId job.leaseOwner job.leaseGeneration reason)
  | .releaseEffectForRetry lease _ _ error =>
      some (.retry lease.effectId lease.leaseOwner lease.leaseGeneration error)
  | .finishEffect lease _ _ result =>
      some (.finish lease.effectId lease.leaseOwner lease.leaseGeneration result)
  | .reserveProcessExecution actor request => some (.processExec actor request)
  | _ => none

/-- A refused action says under which observe-only flag it was refused. -/
def Covered.refused (policy : CapabilityPolicy) (observeOnlyEnabled : Bool) :
    Covered → Option Bool
  | .action actor request =>
      match recordActionPlan policy observeOnlyEnabled actor request with
      | .ok (.denied ..) => some observeOnlyEnabled
      | _ => none
  | _ => none

/-- The ticket of a request is a function of the covered data, the policy and the
observe-only flag. -/
def Covered.ticket (covered : Covered) (policy : CapabilityPolicy) (observeOnlyEnabled : Bool)
    (requestId : String) : Ticket where
  requestId := requestId
  mutationType := covered.mutationType
  canonical := canonicalRequest covered.actor policy.revision
    (covered.document (covered.refused policy observeOnlyEnabled))

def Call.Presents (call : Call) (policy : CapabilityPolicy) (observeOnlyEnabled : Bool)
    (ticket : Ticket) : Prop :=
  call.requestId = some ticket.requestId ∧ ∃ covered, call.covered = some covered ∧
    ticket = covered.ticket policy observeOnlyEnabled ticket.requestId

theorem ticket_presents {policy : CapabilityPolicy} {env : Ambient} {call : Call}
    {ticket : Ticket} (h : call.ticket policy env = some (.ok ticket)) :
    call.Presents policy env.observeOnlyEnabled ticket := by
  cases call with
  | registerActorSession actor requestId cycleId goalId ttl =>
    simp only [Call.ticket, Option.some.injEq, map_eq_ok] at h
    obtain ⟨plan, hplan, rfl⟩ := h
    obtain ⟨repository, -, rfl⟩ := registerPlan_eq_ok hplan
    exact ⟨rfl, _, rfl, rfl⟩
  | issuePrivilegedApproval authority requestId effectId =>
    simp only [Call.ticket, approvalPlan, Option.some.injEq, bind_eq_ok] at h
    obtain ⟨-, -, -, -, h⟩ := h
    cases h
    exact ⟨rfl, _, rfl, rfl⟩
  | recordAction actor request admission =>
    simp only [Call.ticket, Option.some.injEq, map_eq_ok] at h
    obtain ⟨plan, hplan, rfl⟩ := h
    refine ⟨?_, _, rfl, ?_⟩
    · rcases recordActionPlan_cases hplan with rfl | ⟨payload, -, rfl⟩ <;> rfl
    · delta Covered.ticket Covered.refused
      dsimp only
      rw [hplan]
      rcases recordActionPlan_cases hplan with rfl | ⟨payload, -, rfl⟩ <;> rfl
  | recordNoAction actor request =>
    simp only [Call.ticket, recordNoActionPlan, Option.some.injEq, bind_eq_ok] at h
    obtain ⟨-, -, -, -, -, -, h⟩ := h
    cases h
    exact ⟨rfl, _, rfl, rfl⟩
  | recordBlocked actor request =>
    simp only [Call.ticket, recordBlockedPlan, Option.some.injEq, bind_eq_ok] at h
    obtain ⟨-, -, -, -, -, -, h⟩ := h
    cases h
    exact ⟨rfl, _, rfl, rfl⟩
  | recordCompleted actor request =>
    simp only [Call.ticket, recordCompletedPlan, Option.some.injEq, bind_eq_ok] at h
    obtain ⟨-, -, -, -, -, -, -, -, -, -, -, -, -, -, h⟩ := h
    cases h
    exact ⟨rfl, _, rfl, rfl⟩
  | recordProgress actor request =>
    simp only [Call.ticket, recordProgressPlan, Option.some.injEq, bind_eq_ok] at h
    obtain ⟨-, -, -, -, -, -, -, -, h⟩ := h
    cases h
    exact ⟨rfl, _, rfl, rfl⟩
  | claimNextEffect worker requestId now lease =>
    simp only [Call.ticket, claimNextPlan, Option.some.injEq, map_eq_ok, bind_eq_ok] at h
    obtain ⟨plan, ⟨-, -, -, -, millis, -, leaseMillis, hlease, hplan⟩, rfl⟩ := h
    cases hplan
    obtain rfl := durationMillis_eq_ok hlease
    exact ⟨rfl, _, rfl, rfl⟩
  | claimEffectForOutcome outcomeId worker requestId now lease =>
    simp only [Call.ticket, claimForOutcomePlan, Option.some.injEq, map_eq_ok, bind_eq_ok] at h
    obtain ⟨plan, ⟨-, -, -, -, -, -, millis, -, leaseMillis, hlease, hplan⟩, rfl⟩ := h
    cases hplan
    obtain rfl := durationMillis_eq_ok hlease
    exact ⟨rfl, _, rfl, rfl⟩
  | recoverExpiredEffects requestId now =>
    simp only [Call.ticket, recoverPlan, Option.some.injEq, map_eq_ok, bind_eq_ok] at h
    obtain ⟨plan, ⟨-, -, millis, hmillis, hplan⟩, rfl⟩ := h
    cases hplan
    obtain rfl := systemTimeMillis_eq_ok hmillis
    exact ⟨rfl, _, rfl, rfl⟩
  | renewEffect lease requestId now extension =>
    simp only [Call.ticket, renewPlan, Option.some.injEq, map_eq_ok, bind_eq_ok] at h
    obtain ⟨plan,
      ⟨-, -, owner, howner, millis, -, extensionMillis, hextension, -, -, hplan⟩, rfl⟩ := h
    cases hplan
    obtain rfl := durationMillis_eq_ok hextension
    refine ⟨rfl, _, rfl, ?_⟩
    rw [effectLeaseOwner_eq_ok howner]
    rfl
  | blockEffectAuthorization job requestId reason =>
    simp only [Call.ticket, blockPlan, Option.some.injEq, bind_eq_ok] at h
    obtain ⟨-, -, h⟩ := h
    cases h
    exact ⟨rfl, _, rfl, rfl⟩
  | releaseEffectForRetry lease requestId now error =>
    simp only [Call.ticket, retryPlan, Option.some.injEq, map_eq_ok, bind_eq_ok] at h
    obtain ⟨plan, ⟨-, -, owner, howner, millis, -, hplan⟩, rfl⟩ := h
    cases hplan
    refine ⟨rfl, _, rfl, ?_⟩
    rw [effectLeaseOwner_eq_ok howner]
    rfl
  | finishEffect lease requestId now result =>
    simp only [Call.ticket, finishPlan, Option.some.injEq, map_eq_ok, bind_eq_ok] at h
    obtain ⟨plan, ⟨-, -, owner, howner, millis, -, hplan⟩, rfl⟩ := h
    cases hplan
    refine ⟨rfl, _, rfl, ?_⟩
    rw [effectLeaseOwner_eq_ok howner]
    rfl
  | reserveProcessExecution actor request =>
    simp only [Call.ticket, processExecPlan, Option.some.injEq, bind_eq_ok] at h
    obtain ⟨-, -, h⟩ := h
    cases h
    exact ⟨rfl, _, rfl, rfl⟩
  | authenticateActorSession => cases h
  | purgeActorSessions => cases h
  | releaseEngineerClaim => cases h
  | effectForOutcome => cases h
  | updateProcessExecution => cases h

def Call.recall : (call : Call) → Json → Option call.Result
  | .registerActorSession .., stored => (fromJson stored : Option ActorSessionLease)
  | .issuePrivilegedApproval .., stored => (fromJson stored : Option PrivilegedApproval)
  | .recordAction .., stored => (fromJson stored : Option TerminalOutcome)
  | .recordNoAction .., stored => (fromJson stored : Option TerminalOutcome)
  | .recordBlocked .., stored => (fromJson stored : Option TerminalOutcome)
  | .recordCompleted .., stored => (fromJson stored : Option TerminalOutcome)
  | .recordProgress .., stored => (fromJson stored : Option ProgressRecord)
  | .claimNextEffect .., stored => (fromJson stored : Option (Option EffectJob))
  | .claimEffectForOutcome .., stored => (fromJson stored : Option (Option EffectJob))
  | .recoverExpiredEffects .., stored => (fromJson stored : Option Nat)
  | .renewEffect .., _ => some ()
  | .blockEffectAuthorization .., _ => some ()
  | .releaseEffectForRetry .., _ => some ()
  | .finishEffect .., stored => (fromJson stored : Option EffectResult).map fun _ => ()
  | .reserveProcessExecution .., stored =>
      (fromJson stored : Option ProcessExecutionRecord).map fun record => (record, false)
  | _, _ => none

/-- The call goes through the registry under a ticket: a recorded request is
answered from the row, a fresh one leaves its result there. -/
inductive ThroughRegistry (policy : CapabilityPolicy) (env : Ambient) (ledger : Ledger)
    (call : Call) (ticket : Ticket) : Prop where
  | intro (α : Type) [Serde α] (answer : α → call.Result)
      (body : CapabilityResult (call.Result × Ledger))
      (perform_eq : perform policy env ledger call = once ledger ticket answer body)
      (recall_eq : ∀ stored, call.recall stored = (fromJson stored).map answer)
      (records : ∀ value after, call.isPublic → ledger.request ticket.requestId = none →
        body = .ok (value, after) →
          ∃ a, after.request ticket.requestId = some (ticket.row (toJson a)) ∧ answer a = value)

section Registry

variable {policy : CapabilityPolicy} {env : Ambient} {ledger after : Ledger} {call : Call}
  {ticket : Ticket}

theorem eq_map_id (x : Option α) : x = x.map id := by
  cases x <;> rfl

theorem request_record {result : Json} (hfree : ledger.request ticket.requestId = none) :
    (ledger.record ticket result).request ticket.requestId = some (ticket.row result) := by
  unfold Ledger.request Ledger.record
  rw [Table.lookup_append]
  change (ledger.request ticket.requestId).or _ = _
  rw [hfree]
  simp [Ticket.row]

theorem throughRegistry_commitTerminal {actor : AuthenticatedToolContext}
    {identity : TerminalRequestIdentity} {payload : TypedOutcomePayload}
    {rawSemantic : OpaqueBytes} {evidence : List EvidenceRef} {outcome : TerminalOutcome}
    (hfree : ledger.request ticket.requestId = none)
    (h : (do
      ensureCycleOpen ledger identity
      let outcome := newOutcome env actor identity payload rawSemantic evidence
      let recorded ← insertOutcome ledger outcome ticket
      .ok (outcome, recorded)) = .ok (outcome, after)) :
    ∃ a : TerminalOutcome,
      after.request ticket.requestId = some (ticket.row (toJson a)) ∧ a = outcome := by
  simp only [bind_eq_ok, insertOutcome_eq_ok] at h
  obtain ⟨-, -, -, ⟨-, -, rfl⟩, hresult⟩ := h
  cases hresult
  exact ⟨_, request_record hfree, rfl⟩

theorem throughRegistry_leased {α : Type} [Serde α] {lease : EffectJob} {plan : LeasePlan}
    {result : α} {f : EffectRow → EffectRow} {value : Unit}
    (hfree : ledger.request plan.ticket.requestId = none)
    (h : (do
      let _ ← persist (sqlInteger lease.leaseGeneration)
      let updated ← changeOne ledger lease.effectId (·.leasedTo lease plan.owner plan.now) f
      let recorded ← recordRequest updated plan.ticket (toJson result)
      .ok ((), recorded)) = .ok (value, after)) :
    ∃ a : α, after.request plan.ticket.requestId = some (plan.ticket.row (toJson a)) ∧
      () = value := by
  simp only [bind_eq_ok, changeOne_eq_ok, recordRequest_record] at h
  obtain ⟨-, -, -, ⟨-, rfl⟩, -, ⟨-, rfl⟩, hresult⟩ := h
  cases hresult
  exact ⟨result, request_record hfree, rfl⟩

theorem throughRegistry_claimed {worker : String} {expiresAt : Int} {p : EffectRow → Bool}
    {claimed : Option EffectJob} (hfree : ledger.request ticket.requestId = none)
    (h : (do
      let (_, updated) := ledger.updateEffects p (EffectRow.claimed worker expiresAt)
      let claimed ← queryEffect updated
        ((ledger.effectJobs.find? p).map (EffectRow.claimed worker expiresAt))
      let recorded ← recordRequest updated ticket (toJson claimed)
      .ok (claimed, recorded)) = .ok (claimed, after)) :
    ∃ a : Option EffectJob,
      after.request ticket.requestId = some (ticket.row (toJson a)) ∧ a = claimed := by
  simp only [Ledger.updateEffects, bind_eq_ok, recordRequest_record] at h
  obtain ⟨job, -, -, ⟨-, rfl⟩, hresult⟩ := h
  cases hresult
  exact ⟨_, request_record hfree, rfl⟩

theorem throughRegistry (ledger : Ledger) (h : call.ticket policy env = some (.ok ticket)) :
    ThroughRegistry policy env ledger call ticket := by
  cases call with
  | registerActorSession actor requestId cycleId goalId ttl =>
    simp only [Call.ticket, Option.some.injEq, map_eq_ok] at h
    obtain ⟨plan, hplan, rfl⟩ := h
    apply ThroughRegistry.intro ActorSessionLease id
    · simp only [perform, registerActorSession, hplan]
      rfl
    · exact fun _ => eq_map_id _
    · intro value after _ hfree hbody
      simp only [bind_eq_ok, recordRequest_record] at hbody
      obtain ⟨-, -, -, ⟨-, rfl⟩, hresult⟩ := hbody
      cases hresult
      exact ⟨_, request_record hfree, rfl⟩
  | issuePrivilegedApproval authority requestId effectId =>
    simp only [Call.ticket, Option.some.injEq] at h
    apply ThroughRegistry.intro PrivilegedApproval id
    · simp only [perform, issuePrivilegedApproval, h]
      rfl
    · exact fun _ => eq_map_id _
    · intro value after _ hfree hbody
      simp only [bind_eq_ok, persist_eq_ok, Ledger.insertDecision_eq_ok, Ledger.updateEffects,
        recordRequest_record] at hbody
      obtain ⟨draft, -, -, ⟨-, -, rfl⟩, -, ⟨-, rfl⟩, hresult⟩ := hbody
      cases hresult
      exact ⟨_, request_record hfree, rfl⟩
  | recordAction actor request admission =>
    simp only [Call.ticket, Option.some.injEq, map_eq_ok] at h
    obtain ⟨plan, hplan, rfl⟩ := h
    cases plan with
    | granted ticket =>
      apply ThroughRegistry.intro TerminalOutcome id
      · simp only [perform, recordAction, hplan]
        rfl
      · exact fun _ => eq_map_id _
      · intro value after _ hfree hbody
        simp only [bind_eq_ok, insertOutcome_eq_ok, insertEffect, persist_eq_ok,
          Ledger.insertEffectJob_eq_ok] at hbody
        obtain ⟨-, -, -, -, -, -, -, ⟨-, -, rfl⟩, claimed, hclaim, -, ⟨-, -, rfl⟩, hresult⟩ := hbody
        obtain ⟨claims, -, rfl⟩ := insertActionClaim_eq_ok hclaim
        cases hresult
        exact ⟨_, request_record hfree, rfl⟩
    | denied ticket payload =>
      apply ThroughRegistry.intro TerminalOutcome id
      · simp only [perform, recordAction, hplan]
        rfl
      · exact fun _ => eq_map_id _
      · exact fun _ _ _ => throughRegistry_commitTerminal
  | recordNoAction actor request =>
    simp only [Call.ticket, Option.some.injEq] at h
    apply ThroughRegistry.intro TerminalOutcome id
    · simp only [perform, recordNoAction, h]
      rfl
    · exact fun _ => eq_map_id _
    · exact fun _ _ _ => throughRegistry_commitTerminal
  | recordBlocked actor request =>
    simp only [Call.ticket, Option.some.injEq] at h
    apply ThroughRegistry.intro TerminalOutcome id
    · simp only [perform, recordBlocked, h]
      rfl
    · exact fun _ => eq_map_id _
    · exact fun _ _ _ => throughRegistry_commitTerminal
  | recordCompleted actor request =>
    simp only [Call.ticket, Option.some.injEq] at h
    apply ThroughRegistry.intro TerminalOutcome id
    · simp only [perform, recordCompleted, h]
      rfl
    · exact fun _ => eq_map_id _
    · exact fun _ _ _ => throughRegistry_commitTerminal
  | recordProgress actor request =>
    simp only [Call.ticket, Option.some.injEq] at h
    apply ThroughRegistry.intro ProgressRecord id
    · simp only [perform, recordProgress, h]
      rfl
    · exact fun _ => eq_map_id _
    · intro value after _ hfree hbody
      simp only [bind_eq_ok, persist_eq_ok, Ledger.insertProgress_eq_ok,
        recordRequest_record] at hbody
      obtain ⟨-, -, -, ⟨-, rfl⟩, -, ⟨-, rfl⟩, hresult⟩ := hbody
      cases hresult
      exact ⟨_, request_record hfree, rfl⟩
  | claimNextEffect worker requestId now lease =>
    simp only [Call.ticket, Option.some.injEq, map_eq_ok] at h
    obtain ⟨⟨ticket, expiresAt⟩, hplan, rfl⟩ := h
    apply ThroughRegistry.intro (Option EffectJob) id
    · simp only [perform, claimNextEffect, hplan]
      rfl
    · exact fun _ => eq_map_id _
    · exact fun _ _ _ => throughRegistry_claimed
  | claimEffectForOutcome outcomeId worker requestId now lease =>
    simp only [Call.ticket, Option.some.injEq, map_eq_ok] at h
    obtain ⟨⟨ticket, expiresAt⟩, hplan, rfl⟩ := h
    apply ThroughRegistry.intro (Option EffectJob) id
    · simp only [perform, claimEffectForOutcome, hplan]
      rfl
    · exact fun _ => eq_map_id _
    · exact fun _ _ _ => throughRegistry_claimed
  | recoverExpiredEffects requestId now =>
    simp only [Call.ticket, Option.some.injEq, map_eq_ok] at h
    obtain ⟨⟨ticket, millis⟩, hplan, rfl⟩ := h
    apply ThroughRegistry.intro Nat id
    · simp only [perform, recoverExpiredEffects, hplan]
      rfl
    · exact fun _ => eq_map_id _
    · intro value after _ hfree hbody
      simp only [Ledger.updateEffects, bind_eq_ok, recordRequest_record] at hbody
      obtain ⟨-, ⟨-, rfl⟩, hresult⟩ := hbody
      cases hresult
      exact ⟨_, request_record hfree, rfl⟩
  | renewEffect lease requestId now extension =>
    simp only [Call.ticket, Option.some.injEq, map_eq_ok] at h
    obtain ⟨⟨plan, expiresAt⟩, hplan, rfl⟩ := h
    apply ThroughRegistry.intro Json (fun _ => ())
    · simp only [perform, renewEffect, hplan]
      rfl
    · exact fun _ => rfl
    · exact fun _ _ _ => throughRegistry_leased
  | blockEffectAuthorization job requestId reason =>
    simp only [Call.ticket, Option.some.injEq] at h
    apply ThroughRegistry.intro Json (fun _ => ())
    · simp only [perform, blockEffectAuthorization, h]
      rfl
    · exact fun _ => rfl
    · intro value after _ hfree hbody
      simp only [bind_eq_ok, persist_eq_ok, Ledger.insertDecision_eq_ok,
        recordRequest_record] at hbody
      obtain ⟨-, ⟨-, -, rfl⟩, updated, hblock, -, ⟨-, rfl⟩, hresult⟩ := hbody
      obtain ⟨-, rfl⟩ := blockRow_eq_ok hblock
      cases hresult
      exact ⟨Json.null, request_record hfree, rfl⟩
  | releaseEffectForRetry lease requestId now error =>
    simp only [Call.ticket, Option.some.injEq, map_eq_ok] at h
    obtain ⟨plan, hplan, rfl⟩ := h
    apply ThroughRegistry.intro Json (fun _ => ())
    · simp only [perform, releaseEffectForRetry, hplan]
      rfl
    · exact fun _ => rfl
    · exact fun _ _ _ => throughRegistry_leased
  | finishEffect lease requestId now result =>
    simp only [Call.ticket, Option.some.injEq, map_eq_ok] at h
    obtain ⟨plan, hplan, rfl⟩ := h
    apply ThroughRegistry.intro EffectResult (fun _ => ())
    · simp only [perform, finishEffect, hplan]
      rfl
    · exact fun _ => rfl
    · exact fun _ _ _ => throughRegistry_leased
  | reserveProcessExecution actor request =>
    simp only [Call.ticket, Option.some.injEq] at h
    apply ThroughRegistry.intro ProcessExecutionRecord (fun existing => (existing, false))
    · simp only [perform, reserveProcessExecution, h]
      rfl
    · exact fun _ => rfl
    · intro value after hpublic
      cases hpublic
  | authenticateActorSession => cases h
  | purgeActorSessions => cases h
  | releaseEngineerClaim => cases h
  | effectForOutcome => cases h
  | updateProcessExecution => cases h

theorem sameRequest_row (result : Json) : (ticket.row result).sameRequest ticket := by
  simp [MutationRow.sameRequest, Ticket.row]

theorem perform_registered (hticket : call.ticket policy env = some (.ok ticket))
    (hpublic : call.isPublic) {value : call.Result}
    (h : perform policy env ledger call = .ok (value, after)) :
    ∃ row, after.request ticket.requestId = some row ∧ row.sameRequest ticket ∧
      call.recall row.resultJson = some value := by
  obtain ⟨α, answer, body, hperform, hrecall, hrecords⟩ :=
    throughRegistry ledger hticket
  rw [hperform] at h
  rcases once_eq_ok h with ⟨rfl, row, a, hrow, hsame, hstored, rfl⟩ | ⟨hfree, hbody⟩
  · refine ⟨row, hrow, hsame, ?_⟩
    rw [hrecall, hstored]
    rfl
  · obtain ⟨a, hrow, rfl⟩ := hrecords value after hpublic hfree hbody
    refine ⟨_, hrow, sameRequest_row _, ?_⟩
    rw [hrecall]
    simp [Ticket.row]

theorem perform_replay (hticket : call.ticket policy env = some (.ok ticket)) {row : MutationRow}
    (hrow : ledger.request ticket.requestId = some row) (hsame : row.sameRequest ticket)
    {value : call.Result} (hstored : call.recall row.resultJson = some value) :
    perform policy env ledger call = .ok (value, ledger) := by
  obtain ⟨α, answer, body, hperform, hrecall, -⟩ := throughRegistry ledger hticket
  rw [hrecall, Option.map_eq_some_iff] at hstored
  obtain ⟨a, ha, rfl⟩ := hstored
  rw [hperform, once_of_recorded hrow, if_pos hsame, decode_eq_ok.mpr ha]
  rfl

theorem perform_conflict (hticket : call.ticket policy env = some (.ok ticket)) {row : MutationRow}
    (hrow : ledger.request ticket.requestId = some row) (hother : ¬row.sameRequest ticket) :
    perform policy env ledger call = .error (requestConflict ticket.requestId) := by
  obtain ⟨α, answer, body, hperform, -, -⟩ := throughRegistry ledger hticket
  rw [hperform, once_of_recorded hrow, if_neg hother]

theorem perform_refused {error : CapabilityError}
    (h : call.ticket policy env = some (.error error)) :
    perform policy env ledger call = .error error := by
  cases call with
  | registerActorSession actor requestId cycleId goalId ttl =>
    simp only [Call.ticket, Option.some.injEq, map_eq_error] at h
    simp only [perform, registerActorSession, h]
    rfl
  | issuePrivilegedApproval authority requestId effectId =>
    simp only [Call.ticket, Option.some.injEq] at h
    simp only [perform, issuePrivilegedApproval, h]
    rfl
  | recordAction actor request admission =>
    simp only [Call.ticket, Option.some.injEq, map_eq_error] at h
    simp only [perform, recordAction, h]
    rfl
  | recordNoAction actor request =>
    simp only [Call.ticket, Option.some.injEq] at h
    simp only [perform, recordNoAction, h]
    rfl
  | recordBlocked actor request =>
    simp only [Call.ticket, Option.some.injEq] at h
    simp only [perform, recordBlocked, h]
    rfl
  | recordCompleted actor request =>
    simp only [Call.ticket, Option.some.injEq] at h
    simp only [perform, recordCompleted, h]
    rfl
  | recordProgress actor request =>
    simp only [Call.ticket, Option.some.injEq] at h
    simp only [perform, recordProgress, h]
    rfl
  | claimNextEffect worker requestId now lease =>
    simp only [Call.ticket, Option.some.injEq, map_eq_error] at h
    simp only [perform, claimNextEffect, h]
    rfl
  | claimEffectForOutcome outcomeId worker requestId now lease =>
    simp only [Call.ticket, Option.some.injEq, map_eq_error] at h
    simp only [perform, claimEffectForOutcome, h]
    rfl
  | recoverExpiredEffects requestId now =>
    simp only [Call.ticket, Option.some.injEq, map_eq_error] at h
    simp only [perform, recoverExpiredEffects, h]
    rfl
  | renewEffect lease requestId now extension =>
    simp only [Call.ticket, Option.some.injEq, map_eq_error] at h
    simp only [perform, renewEffect, h]
    rfl
  | blockEffectAuthorization job requestId reason =>
    simp only [Call.ticket, Option.some.injEq] at h
    simp only [perform, blockEffectAuthorization, h]
    rfl
  | releaseEffectForRetry lease requestId now error =>
    simp only [Call.ticket, Option.some.injEq, map_eq_error] at h
    simp only [perform, releaseEffectForRetry, h]
    rfl
  | finishEffect lease requestId now result =>
    simp only [Call.ticket, Option.some.injEq, map_eq_error] at h
    simp only [perform, finishEffect, h]
    rfl
  | reserveProcessExecution actor request =>
    simp only [Call.ticket, Option.some.injEq] at h
    simp only [perform, reserveProcessExecution, h]
    rfl
  | authenticateActorSession => cases h
  | purgeActorSessions => cases h
  | releaseEngineerClaim => cases h
  | effectForOutcome => cases h
  | updateProcessExecution => cases h

theorem commit_of_recorded (op : Operation) (h : op.isFresh ledger = false) :
    op.commit ledger = ledger := by
  unfold Operation.isFresh Call.isFresh at h
  split at h
  next ticket hticket =>
    obtain ⟨α, answer, body, hperform, -, -⟩ := throughRegistry ledger hticket
    cases hresult : op.result ledger with
    | error error => exact op.commit_of_error hresult
    | ok value =>
      rw [op.commit_of_ok hresult]
      unfold Operation.result at hresult
      rw [hperform] at hresult
      rcases once_eq_ok hresult with ⟨hsame, -⟩ | ⟨hfree, -⟩
      · exact hsame
      · rw [hfree] at h
        cases h
  next => cases h

theorem recall_isSome {other : Call} {covered : Covered} (hcall : call.covered = some covered)
    (hother : other.covered = some covered) (stored : Json) :
    (other.recall stored).isSome = (call.recall stored).isSome := by
  cases call <;> cases hcall <;> cases other <;> first
    | (cases hother; done)
    | rfl

end Registry

theorem keptByCommits_request {requestId : String} {row : MutationRow}
    (htype : row.mutationType ≠ .processExec) :
    KeptByCommits fun ledger => ledger.request requestId = some row := by
  intro policy env ledger call after hcommit hupdate hrow
  obtain ⟨row', hrow', hsame | ⟨record, expected, hcall, hid, -⟩⟩ := commit_request hcommit hrow
  · rw [hrow', hsame]
  · obtain ⟨process, hprocess, hprocessType⟩ := hupdate record expected hcall
    rw [hid, hrow] at hprocess
    cases hprocess
    exact absurd hprocessType htype

/-- SHA-256 tells the two requests apart if they differ. -/
def Operation.NoCollision (op later : Operation) : Prop :=
  ∀ ticket other, op.call.ticket op.policy op.env = some (.ok ticket) →
    later.call.ticket later.policy later.env = some (.ok other) →
      Sha256.digest ticket.canonical.toVec = Sha256.digest other.canonical.toVec →
        ticket.canonical.toVec = other.canonical.toVec

/-- The later operation asks for the same thing: the same covered data under the
same policy and observe-only flag. -/
structure Operation.Repeats (later op : Operation) : Prop where
  policy : later.policy = op.policy
  observeOnly : later.env.observeOnlyEnabled = op.env.observeOnlyEnabled
  covered : later.call.covered = op.call.covered

/-- What becomes of a request id once an operation has succeeded with it. -/
structure AnsweredOnce (op : Operation) (value : op.call.Result) (requestId : String)
    (ledger : Ledger) : Prop where
  again : ∀ env : Ambient, env.observeOnlyEnabled = op.env.observeOnlyEnabled →
    Operation.result ⟨op.policy, env, op.call⟩ ledger = .ok (value, ledger)
  retried : ∃ stored, op.call.recall stored = some value ∧
    ∀ later : Operation, later.call.requestId = some requestId → later.Repeats op →
      (∃ error, later.call.ticket later.policy later.env = some (.error error) ∧
        later.result ledger = .error error) ∨
      ∃ value, later.call.recall stored = some value ∧
        later.result ledger = .ok (value, ledger)
  reused : ∀ later : Operation, later.call.requestId = some requestId → op.NoCollision later →
    (later.call.covered ≠ op.call.covered ∨ later.policy.revision ≠ op.policy.revision) →
      later.result ledger = .error (requestConflict requestId) ∨
        ∃ error, later.call.ticket later.policy later.env = some (.error error) ∧
          later.result ledger = .error error
  failed : ∀ (later : Operation) error, later.result ledger = .error error →
    later.commit ledger = ledger

section Runs

variable {op later : Operation} {ticket other : Ticket}

theorem ticket_of_requestId (policy : CapabilityPolicy) (env : Ambient) {call : Call}
    {requestId : String} (h : call.requestId = some requestId) :
    ∃ result, call.ticket policy env = some result := by
  cases call <;> first
    | exact ⟨_, rfl⟩
    | cases h

theorem ticket_env (policy : CapabilityPolicy) {env env' : Ambient} {call : Call}
    (hpublic : call.isPublic) (hflag : env'.observeOnlyEnabled = env.observeOnlyEnabled) :
    call.ticket policy env' = call.ticket policy env := by
  cases call with
  | recordAction => simp only [Call.ticket, hflag]
  | reserveProcessExecution => cases hpublic
  | _ => rfl

theorem Operation.Repeats.ticket_eq (h : later.Repeats op)
    (hticket : op.call.ticket op.policy op.env = some (.ok ticket))
    (hother : later.call.ticket later.policy later.env = some (.ok other))
    (hid : later.call.requestId = op.call.requestId) : other = ticket := by
  obtain ⟨hrequest, covered, hcovered, heq⟩ := ticket_presents hticket
  obtain ⟨hrequest', covered', hcovered', heq'⟩ := ticket_presents hother
  rw [hid, hrequest] at hrequest'
  rw [h.covered, hcovered] at hcovered'
  cases hcovered'
  rw [heq', heq, h.policy, h.observeOnly, Option.some.inj hrequest']

theorem Operation.NoCollision.covered_eq (h : op.NoCollision later)
    (hticket : op.call.ticket op.policy op.env = some (.ok ticket))
    (hother : later.call.ticket later.policy later.env = some (.ok other))
    (htype : ticket.mutationType = other.mutationType)
    (hfingerprint : ticket.fingerprint = other.fingerprint) :
    later.call.covered = op.call.covered ∧ later.policy.revision = op.policy.revision := by
  have hdocument := Json.toVec_injective
    (h ticket other hticket hother (sha256Hex_eq_iff.mp hfingerprint))
  obtain ⟨-, covered, hcovered, heq⟩ := ticket_presents hticket
  obtain ⟨-, covered', hcovered', heq'⟩ := ticket_presents hother
  rw [heq, heq'] at hdocument htype
  obtain ⟨hactor, hrevision, hrequest⟩ := Covered.canonicalRequest_injective hdocument
  rw [hcovered, hcovered', Covered.eq_of_document htype hactor hrequest]
  exact ⟨rfl, hrevision.symm⟩

theorem sameRequest_iff {row : MutationRow} {ticket : Ticket} :
    row.sameRequest ticket ↔ row.mutationType = ticket.mutationType ∧
      row.requestHash = ticket.fingerprint ∧ row.requestFormatVersion = 2 ∧
      row.resultFormatVersion = 1 := by
  simp [MutationRow.sameRequest, and_assoc]

theorem answeredOnce_of_row {ledger : Ledger} {row : MutationRow} {value : op.call.Result}
    (hpublic : op.call.isPublic)
    (hticket : op.call.ticket op.policy op.env = some (.ok ticket))
    (hrow : ledger.request ticket.requestId = some row) (hsame : row.sameRequest ticket)
    (hstored : op.call.recall row.resultJson = some value) :
    AnsweredOnce op value ticket.requestId ledger := by
  obtain ⟨hrequest, covered, hcovered, -⟩ := ticket_presents hticket
  constructor
  · intro env hflag
    have hagain := (ticket_env op.policy hpublic hflag).trans hticket
    exact perform_replay hagain hrow hsame hstored
  · refine ⟨row.resultJson, hstored, ?_⟩
    intro later hid hrepeats
    obtain ⟨result, hlater⟩ := ticket_of_requestId later.policy later.env hid
    cases result with
    | error error => exact .inl ⟨error, hlater, perform_refused hlater⟩
    | ok other =>
      have heq := hrepeats.ticket_eq hticket hlater (hid.trans hrequest.symm)
      subst heq
      have hread := recall_isSome hcovered (hrepeats.covered.trans hcovered) row.resultJson
      rw [hstored] at hread
      obtain ⟨value', hvalue'⟩ := Option.isSome_iff_exists.mp hread
      exact .inr ⟨value', hvalue', perform_replay hlater hrow hsame hvalue'⟩
  · intro later hid hcollision hdiffers
    obtain ⟨result, hlater⟩ := ticket_of_requestId later.policy later.env hid
    cases result with
    | error error => exact .inr ⟨error, hlater, perform_refused hlater⟩
    | ok other =>
      obtain ⟨hrequest', -⟩ := ticket_presents hlater
      have hids : other.requestId = ticket.requestId := by
        rw [hid] at hrequest'
        exact (Option.some.inj hrequest').symm
      left
      rw [← hids]
      apply perform_conflict hlater (hids ▸ hrow)
      intro hsame'
      obtain ⟨htype, hhash, -⟩ := sameRequest_iff.mp hsame
      obtain ⟨htype', hhash', -⟩ := sameRequest_iff.mp hsame'
      have heq := hcollision.covered_eq hticket hlater (htype.symm.trans htype')
        (hhash.symm.trans hhash')
      rcases hdiffers with hdiffers | hdiffers
      · exact hdiffers heq.1
      · exact hdiffers heq.2
  · intro later error herror
    exact later.commit_of_error herror

theorem mutationType_of_public {call : Call} {covered : Covered} (hpublic : call.isPublic)
    (h : call.covered = some covered) : covered.mutationType ≠ .processExec := by
  cases call <;> cases h <;> first
    | (cases hpublic; done)
    | exact nofun

end Runs

/-- In every run, once a mutation with a request id has succeeded, the same
request is answered with the stored result at every later point, the same id with
other covered data or another revision conflicts, and whatever fails changes
nothing. -/
theorem requests_exactly_once (ledger : Ledger) (left right : List SystemEvent)
    (event : SystemEvent) (op : Operation) (requestId : String) (value : op.call.Result)
    (after : Ledger)
    (hop : operationOf (system.run (Pool.init ledger) left) event = some op)
    (hpublic : op.call.isPublic) (hid : op.call.requestId = some requestId)
    (hok : op.result (system.run (Pool.init ledger) left).shared = .ok (value, after)) :
    AnsweredOnce op value requestId
      (system.run (Pool.init ledger) (left ++ event :: right)).shared := by
  obtain ⟨result, hticket⟩ := ticket_of_requestId op.policy op.env hid
  cases result with
  | error error =>
    unfold Operation.result at hok
    rw [perform_refused hticket] at hok
    cases hok
  | ok ticket =>
    obtain ⟨row, hrow, hsame, hstored⟩ := perform_registered hticket hpublic hok
    obtain ⟨hrequest, covered, hcovered, heq⟩ := ticket_presents hticket
    rw [hid] at hrequest
    cases hrequest
    have hledger : (system.run (Pool.init ledger) (left ++ [event])).shared = after := by
      rw [Machine.run_append]
      change (system.step _ event).shared = after
      rw [step_ledger, hop]
      exact op.commit_of_ok hok
    have htype : row.mutationType ≠ .processExec := by
      rw [(sameRequest_iff.mp hsame).1, heq]
      exact mutationType_of_public hpublic hcovered
    rw [← hledger] at hrow
    have hlater := (keptByCommits_request htype).run (left ++ [event]) hrow right
    rw [List.append_assoc] at hlater
    exact answeredOnce_of_row hpublic hticket hlater hsame hstored

theorem recovery_answered_once :
    let op : Operation :=
      ⟨samplePolicy, (sampleWorld "a" false 0).toAmbient, .recoverExpiredEffects "recover-1" 0⟩
    let later : Operation :=
      ⟨samplePolicy, (sampleWorld "b" false 1).toAmbient,
        .recoverExpiredEffects "recover-1" 1000000⟩
    let ledger := (system.run (Pool.init Ledger.empty)
      [.start (.call samplePolicy op.call rfl), .advance 0 (sampleWorld "a" false 0)]).shared
    op.result ledger = .ok ((0 : Nat), ledger) ∧
      later.result ledger = .error (requestConflict "recover-1") := by
  intro op later ledger
  have honce := requests_exactly_once Ledger.empty [.start (.call samplePolicy op.call rfl)] []
    (.advance 0 (sampleWorld "a" false 0)) op "recover-1" (0 : Nat) _ rfl rfl rfl rfl
  refine ⟨honce.again op.env rfl, ?_⟩
  have hcollision : op.NoCollision later := by
    intro ticket other hticket hother hdigest
    cases hticket
    cases hother
    revert hdigest
    decide +kernel
  rcases honce.reused later rfl hcollision (.inl nofun) with h | ⟨error, h, -⟩
  · exact h
  · cases h

def sampleSnapshot : EffectJob where
  effectId := "a-1"
  outcomeId := "a-0"
  requestId := "request-1"
  goalId := "goal-1"
  repository := some ⟨"rysweet", "Simard"⟩
  kind := ⟨"request_merge"⟩
  state := .pending
  action := sampleMerge
  attempt := 0
  leaseGeneration := 0
  leaseOwner := none
  leaseExpiresAtUnixMillis := none
  error := none
  result := none
  approval := none

/-- The fingerprint of a block does not cover the outcome its snapshot names, so
the request id can be reused with a snapshot of another outcome. -/
theorem block_reused_with_other_snapshot :
    let op : Operation := ⟨samplePolicy, (sampleWorld "b" false 1).toAmbient,
      .blockEffectAuthorization sampleSnapshot "block-1" "denied"⟩
    let other : Operation := ⟨samplePolicy, (sampleWorld "c" false 2).toAmbient,
      .blockEffectAuthorization { sampleSnapshot with outcomeId := "outcome-9" } "block-1" "denied"⟩
    let pool := system.run (Pool.init Ledger.empty)
      [.start (.call samplePolicy recordSampleMerge rfl), .advance 0 (sampleWorld "a" false 0),
        .start (.call samplePolicy op.call rfl)]
    let ledger := (system.step pool (.advance 1 (sampleWorld "b" false 1))).shared
    operationOf pool (.advance 1 (sampleWorld "b" false 1)) = some op ∧
      op.result pool.shared = .ok ((), ledger) ∧ other.call.requestId = op.call.requestId ∧
      other.call ≠ op.call ∧ other.result ledger = .ok ((), ledger) := by
  intro op other pool ledger
  refine ⟨rfl, rfl, rfl, ?_, ?_⟩
  · intro h
    injection h with hjob
    revert hjob
    decide
  · have hrow : ledger.request "block-1" = some (Ticket.row _ Json.null) := rfl
    exact perform_replay rfl hrow (sameRequest_row _) rfl

end Simard.TypedOoda
