import Simard.TypedOoda.ExactlyOnce

/-! What is hashed of a request. The terminals share a registry type and none names its kind, yet
the members of each document tell the kinds apart, and every member reads back as the value it
was written from. Equal bytes are therefore equal requests. -/
namespace Simard.TypedOoda
open Simard.Library

/-- A call whose request is fingerprinted, with what its document is made of. A denied action
carries the grant that was missing and the observe-only flag it was denied under. -/
inductive Fingerprinted where
  | action (request : RecordActionRequest)
  | actionDenied (request : RecordActionRequest) (grant : CapabilityGrant)
      (observeOnlyEnabled : Bool)
  | noAction (request : RecordNoActionRequest)
  | blocked (request : RecordBlockedRequest)
  | completed (request : RecordCompletedRequest)
  | progress (request : RecordProgressRequest)
  | process (request : ProcessExecRequest)

namespace Fingerprinted

def document : Fingerprinted → Json
  | action request => toJson request
  | actionDenied request grant observeOnlyEnabled =>
      refusalDocument grant request observeOnlyEnabled
  | noAction request => toJson request
  | blocked request => toJson request
  | completed request => toJson request
  | progress request => toJson request
  | process request => .arr [.str "process_exec_v1", toJson request]

def preImage (call : Fingerprinted) (actor : AuthenticatedToolContext) (policyRevision : String) :
    List UInt8 :=
  (canonicalRequest actor policyRevision call.document).toVec

theorem document_injective : Function.Injective document := by
  intro a b h
  cases a <;> cases b
  case action.action => exact congrArg action (toJson_injective h)
  case noAction.noAction => exact congrArg noAction (toJson_injective h)
  case blocked.blocked => exact congrArg blocked (toJson_injective h)
  case completed.completed => exact congrArg completed (toJson_injective h)
  case progress.progress => exact congrArg progress (toJson_injective h)
  case process.process request other =>
    simp only [document, Json.arr.injEq, List.cons.injEq, toJson_injective.eq_iff] at h
    exact congrArg process h.2.1
  case actionDenied.actionDenied =>
    simp only [document, refusalDocument, Json.arr.injEq, List.cons.injEq,
      toJson_injective.eq_iff] at h
    obtain ⟨-, rfl, rfl, rfl, -⟩ := h
    rfl
  -- left are two different kinds, whose documents have different members
  all_goals
    simp [document, refusalDocument, Serde.toJson] at h

def ofCall (policy : CapabilityPolicy) (env : Ambient) :
    Call → Option (AuthenticatedToolContext × Fingerprinted)
  | .recordAction actor request _ =>
      match recordActionPlan policy env.observeOnlyEnabled actor request with
      | .ok (.denied ..) => some (actor, .actionDenied request (.recordAction request.action.kind)
          env.observeOnlyEnabled)
      | _ => some (actor, .action request)
  | .recordNoAction actor request => some (actor, .noAction request)
  | .recordBlocked actor request => some (actor, .blocked request)
  | .recordCompleted actor request => some (actor, .completed request)
  | .recordProgress actor request => some (actor, .progress request)
  | .reserveProcessExecution actor request => some (actor, .process request)
  | _ => none

theorem fingerprint_of_call {policy : CapabilityPolicy} {env : Ambient} {call : Call}
    {ticket : Ticket} {actor : AuthenticatedToolContext} {presented : Fingerprinted}
    (hticket : call.ticket policy env = some (.ok ticket))
    (hcall : ofCall policy env call = some (actor, presented)) :
    ticket.fingerprint = sha256Hex (presented.preImage actor policy.revision) := by
  obtain ⟨-, covered, hcovered, heq⟩ := ticket_presents hticket
  have hcanonical : covered.actor = actor ∧
      covered.document (covered.refused policy env.observeOnlyEnabled) = presented.document := by
    cases call with
    | recordAction doer request admission =>
      cases hcovered
      delta Covered.refused
      delta ofCall at hcall
      dsimp only at hcall ⊢
      cases hplan : recordActionPlan policy env.observeOnlyEnabled doer request with
      | error e =>
        rw [hplan] at hcall
        cases hcall
        exact ⟨rfl, rfl⟩
      | ok plan =>
        rw [hplan] at hcall
        cases plan <;> cases hcall <;> exact ⟨rfl, rfl⟩
    | recordNoAction => cases hcovered; cases hcall; exact ⟨rfl, rfl⟩
    | recordBlocked => cases hcovered; cases hcall; exact ⟨rfl, rfl⟩
    | recordCompleted => cases hcovered; cases hcall; exact ⟨rfl, rfl⟩
    | recordProgress => cases hcovered; cases hcall; exact ⟨rfl, rfl⟩
    | reserveProcessExecution => cases hcovered; cases hcall; exact ⟨rfl, rfl⟩
    | _ => cases hcall
  rw [heq, Ticket.fingerprint, preImage, Covered.ticket, hcanonical.1, hcanonical.2]

/-- Equal bytes come from the same kind of call, the same request, the same actor scope and the
same policy revision. -/
theorem pre_images_injective {call other : Fingerprinted} {actor actor' : AuthenticatedToolContext}
    {revision revision' : String}
    (h : call.preImage actor revision = other.preImage actor' revision') :
    call = other ∧ actor = actor' ∧ revision = revision' := by
  obtain ⟨hactor, hrevision, hdocument⟩ :=
    Covered.canonicalRequest_injective (Json.toVec_injective h)
  exact ⟨document_injective hdocument, hactor, hrevision⟩

theorem grants_reordered_pre_image :
    let actor :=
      AuthenticatedToolContext.new "engineer" "session-1" [.recordBlocked, .recordProgress]
    let other :=
      AuthenticatedToolContext.new "engineer" "session-1" [.recordProgress, .recordBlocked]
    (action sampleRequest).preImage actor "policy-1" =
        (action sampleRequest).preImage other "policy-1" ∧ actor = other := by
  intro actor other
  have hbytes : (action sampleRequest).preImage actor "policy-1" =
      (action sampleRequest).preImage other "policy-1" :=
    congrArg (fun context => (action sampleRequest).preImage context "policy-1")
      (show actor = other by decide)
  exact ⟨hbytes, (pre_images_injective hbytes).2.1⟩

end Fingerprinted

end Simard.TypedOoda
