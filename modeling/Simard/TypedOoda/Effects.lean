import Simard.TypedOoda.Registry

/-! Effect jobs: the snapshots handed to workers, the leases on them and the
privileged approvals. A worker's snapshot is only a value it holds; every
mutation compares it with the row it finds. -/
namespace Simard.TypedOoda
open Simard.Library

structure EffectKind where
  asStr : String
  deriving DecidableEq

inductive EffectResult where
  | succeeded (evidence : List EvidenceRef)
  | failed (error : String)
  deriving DecidableEq

structure PrivilegedApproval where
  approvalId : String
  principal : String
  effectId : String
  outcomeId : String
  sessionId : String
  cycleId : String
  goalId : String
  actionKind : ActionKind
  canonicalPayloadHash : String
  repository : Option RepositoryRef
  policyRevision : String
  issuedAtUnixMillis : Int
  signature : String
  deriving DecidableEq

structure EffectJob where
  effectId : String
  outcomeId : String
  requestId : String
  goalId : String
  repository : Option RepositoryRef
  kind : EffectKind
  state : EffectState
  action : Action
  attempt : Nat
  leaseGeneration : Nat
  leaseOwner : Option String
  leaseExpiresAtUnixMillis : Option Int
  error : Option String
  result : Option EffectResult
  approval : Option PrivilegedApproval
  deriving DecidableEq

structure ApprovalAuthority where
  principal : String
  signingKey : List UInt8

instance : Serde EffectKind where
  toJson a := toJson a.asStr
  fromJson document := (fromJson document).map EffectKind.mk
  fromJson_toJson a := by simp

instance : Serde EffectState where
  toJson a := toJson a.asStr
  fromJson document := (fromJson document).map EffectState.mk
  fromJson_toJson a := by simp

instance : Serde EffectResult where
  toJson
    | .succeeded evidence => .obj [("Succeeded", .obj [("evidence", toJson evidence)])]
    | .failed error => .obj [("Failed", .obj [("error", toJson error)])]
  fromJson
    | .obj [("Succeeded", document)] => do some (.succeeded (← document.get "evidence"))
    | .obj [("Failed", document)] => do some (.failed (← document.get "error"))
    | _ => none
  fromJson_toJson a := by cases a <;> simp

instance : Serde.Present EffectResult := ⟨fun a h => by cases a <;> cases h⟩

def unsignedFields (a : PrivilegedApproval) : List (String × Json) :=
  [("approval_id", toJson a.approvalId), ("principal", toJson a.principal),
    ("effect_id", toJson a.effectId), ("outcome_id", toJson a.outcomeId),
    ("session_id", toJson a.sessionId), ("cycle_id", toJson a.cycleId),
    ("goal_id", toJson a.goalId), ("action_kind", toJson a.actionKind),
    ("canonical_payload_hash", toJson a.canonicalPayloadHash),
    ("repository", toJson a.repository), ("policy_revision", toJson a.policyRevision),
    ("issued_at_unix_millis", toJson a.issuedAtUnixMillis)]

instance : Serde PrivilegedApproval where
  toJson a := .obj (unsignedFields a ++ [("signature", toJson a.signature)])
  fromJson document := do
    some ⟨← document.get "approval_id", ← document.get "principal", ← document.get "effect_id",
      ← document.get "outcome_id", ← document.get "session_id", ← document.get "cycle_id",
      ← document.get "goal_id", ← document.get "action_kind",
      ← document.get "canonical_payload_hash", ← document.getOption "repository",
      ← document.get "policy_revision", ← document.get "issued_at_unix_millis",
      ← document.get "signature"⟩
  fromJson_toJson a := by simp [unsignedFields]

instance : Serde.Present PrivilegedApproval := ⟨fun _ h => nomatch h⟩

instance : Serde EffectJob where
  toJson a := .obj [("effect_id", toJson a.effectId), ("outcome_id", toJson a.outcomeId),
    ("request_id", toJson a.requestId), ("goal_id", toJson a.goalId),
    ("repository", toJson a.repository), ("kind", toJson a.kind), ("state", toJson a.state),
    ("action", toJson a.action), ("attempt", toJson a.attempt),
    ("lease_generation", toJson a.leaseGeneration), ("lease_owner", toJson a.leaseOwner),
    ("lease_expires_at_unix_millis", toJson a.leaseExpiresAtUnixMillis),
    ("error", toJson a.error), ("result", toJson a.result), ("approval", toJson a.approval)]
  fromJson document := do
    some ⟨← document.get "effect_id", ← document.get "outcome_id", ← document.get "request_id",
      ← document.get "goal_id", ← document.getOption "repository", ← document.get "kind",
      ← document.get "state", ← document.get "action", ← document.get "attempt",
      ← document.get "lease_generation", ← document.getOption "lease_owner",
      ← document.getOption "lease_expires_at_unix_millis", ← document.getOption "error",
      ← document.getOption "result", ← document.getOption "approval"⟩
  fromJson_toJson a := by simp

instance : Serde.Present EffectJob := ⟨fun _ h => nomatch h⟩

def actionPayloadHash (action : Action) : String :=
  sha256Hex (toJson action).toVec

def approvalSignature (signingKey : List UInt8) (approval : PrivilegedApproval) : String :=
  hmacSha256Hex signingKey (Json.obj (unsignedFields approval)).toVec

def staleLease (effectId : String) : CapabilityError :=
  ⟨.staleLease, "effect " ++ quoted effectId ++ " lease owner, generation, or expiry is stale"⟩

def effectLeaseOwner (lease : EffectJob) : CapabilityResult String :=
  match lease.leaseOwner with
  | some owner =>
      if owner != "" && 0 < lease.leaseGeneration then .ok owner
      else .error (staleLease lease.effectId)
  | none => .error (staleLease lease.effectId)

def systemActor (lease : EffectJob) : AuthenticatedToolContext :=
  .new "effect-worker" ("effect:" ++ lease.effectId) []

def terminalForOutcomeId (ledger : Ledger) (outcomeId : String) :
    CapabilityResult TerminalOutcome :=
  match ledger.terminal outcomeId with
  | some row => decode row.outcomeJson
  | none => .error (persistence .queryReturnedNoRows)

def laterDecision (best : Option DecisionRow) (row : DecisionRow) : Option DecisionRow :=
  match best with
  | none => some row
  | some held => if held.recordedAt ≤ row.recordedAt then some row else some held

def latestApproval (ledger : Ledger) (effectId : String) : Option Json :=
  ((ledger.authorizationDecisions.filter
    fun row => row.effectId = effectId && row.decision = .approved).foldl laterDecision none).map
      (·.decisionJson)

/-- The counters have to fit the integers a snapshot reads them as. -/
def readCounters (row : EffectRow) : Except SqlError Unit :=
  if row.attempt < 2 ^ 32 && row.leaseGeneration < 2 ^ 63 then .ok () else .error .outOfRange

/-- The columns of a row as a job, with its terminal's goal and repository and the
latest approval. -/
def readEffect (ledger : Ledger) (row : EffectRow) : CapabilityResult EffectJob := do
  persist (readCounters row)
  let outcome ← terminalForOutcomeId ledger row.outcomeId
  let action : Action ← decode row.actionJson
  let result : Option EffectResult ← row.resultJson.mapM decode
  let approval : Option PrivilegedApproval ← (latestApproval ledger row.effectId).mapM decode
  .ok {
    effectId := row.effectId
    outcomeId := row.outcomeId
    requestId := row.requestId
    goalId := outcome.goalId
    repository := outcome.repository
    kind := ⟨row.kind⟩
    state := row.state
    action
    attempt := row.attempt
    leaseGeneration := row.leaseGeneration
    leaseOwner := row.leaseOwner
    leaseExpiresAtUnixMillis := row.leaseExpiresAt
    error := row.error
    result
    approval }

def queryEffect (ledger : Ledger) (row : Option EffectRow) : CapabilityResult (Option EffectJob) :=
  row.mapM (readEffect ledger)

def queryEffectById (ledger : Ledger) (effectId : String) : CapabilityResult (Option EffectJob) :=
  queryEffect ledger (ledger.effect effectId)

def effectForOutcome (outcomeId : String) (ledger : Ledger) : CapabilityResult (Option EffectJob) :=
  queryEffect ledger (Table.lookup EffectRow.outcomeId outcomeId ledger.effectJobs)

def EffectRow.claimed (worker : String) (expiresAt : Int) (row : EffectRow) : EffectRow :=
  { row with
    state := .running
    attempt := row.attempt + 1
    leaseGeneration := row.leaseGeneration + 1
    leaseOwner := some worker
    leaseExpiresAt := some expiresAt }

def claimActor (worker : String) : AuthenticatedToolContext :=
  .new "effect-claim" worker []

/-- Lease the pending rows a `WHERE` clause selects and return the first of them. -/
def claimWhere (ledger : Ledger) (ticket : Ticket) (worker : String) (expiresAt : Int)
    (selected : EffectRow → Bool) : CapabilityResult (Option EffectJob × Ledger) :=
  once ledger ticket id do
    let p := fun row : EffectRow => selected row && row.state = .pending
    let (_, updated) := ledger.updateEffects p (·.claimed worker expiresAt)
    let claimed ← queryEffect updated ((ledger.effectJobs.find? p).map (·.claimed worker expiresAt))
    let recorded ← recordRequest updated ticket (toJson claimed)
    .ok (claimed, recorded)

def claimNextPlan (policy : CapabilityPolicy) (worker requestId : String) (now : SystemTime)
    (lease : Duration) : CapabilityResult (Ticket × Int) := do
  validateIdentifier "effect worker" worker
  validateIdentifier "effect claim request id" requestId
  let now ← systemTimeMillis now
  let leaseMillis ← durationMillis lease "effect lease is too long"
  .ok (⟨requestId, .effectClaim, canonicalRequest (claimActor worker) policy.revision
    (.arr [.str "claim_next_effect_v1", toJson worker, toJson leaseMillis])⟩,
    saturatingAdd now leaseMillis)

def claimNextEffect (policy : CapabilityPolicy) (worker requestId : String) (now : SystemTime)
    (lease : Duration) (ledger : Ledger) : CapabilityResult (Option EffectJob × Ledger) := do
  let (ticket, expiresAt) ← claimNextPlan policy worker requestId now lease
  claimWhere ledger ticket worker expiresAt fun row =>
    (ledger.effectJobs.find? (·.state = .pending)).any fun first => row.effectId = first.effectId

def claimForOutcomePlan (policy : CapabilityPolicy) (outcomeId worker requestId : String)
    (now : SystemTime) (lease : Duration) : CapabilityResult (Ticket × Int) := do
  validateIdentifier "effect worker" worker
  validateIdentifier "outcome id" outcomeId
  validateIdentifier "effect claim request id" requestId
  let now ← systemTimeMillis now
  let leaseMillis ← durationMillis lease "effect lease is too long"
  .ok (⟨requestId, .effectClaim, canonicalRequest (claimActor worker) policy.revision
    (.arr [.str "claim_effect_for_outcome_v1", toJson outcomeId, toJson worker,
      toJson leaseMillis])⟩,
    saturatingAdd now leaseMillis)

def claimEffectForOutcome (policy : CapabilityPolicy) (outcomeId worker requestId : String)
    (now : SystemTime) (lease : Duration) (ledger : Ledger) :
    CapabilityResult (Option EffectJob × Ledger) := do
  let (ticket, expiresAt) ← claimForOutcomePlan policy outcomeId worker requestId now lease
  claimWhere ledger ticket worker expiresAt fun row => row.outcomeId = outcomeId

def EffectRow.expiredBy (now : Int) (row : EffectRow) : Bool :=
  row.state = .running && row.leaseExpiresAt.any (· ≤ now)

def EffectRow.recovered (row : EffectRow) : EffectRow :=
  { row with
    state := .indeterminate
    error := some "effect lease expired; execution outcome is unknown" }

def recoverPlan (policy : CapabilityPolicy) (requestId : String) (now : SystemTime) :
    CapabilityResult (Ticket × Int) := do
  validateIdentifier "effect recovery request id" requestId
  let now ← systemTimeMillis now
  .ok (⟨requestId, .effectRecovery, canonicalRequest (.new "effect-recovery" "system" [])
    policy.revision (.arr [.str "recover_effects_v1", toJson now])⟩, now)

def recoverExpiredEffects (policy : CapabilityPolicy) (requestId : String) (now : SystemTime)
    (ledger : Ledger) : CapabilityResult (Nat × Ledger) := do
  let (ticket, now) ← recoverPlan policy requestId now
  once ledger ticket id do
    let (recovered, updated) := ledger.updateEffects (·.expiredBy now) EffectRow.recovered
    let recorded ← recordRequest updated ticket (toJson recovered)
    .ok (recovered, recorded)

/-- The row is running under the snapshot's owner and generation and its lease
ends strictly later than the given instant. -/
def EffectRow.leasedTo (lease : EffectJob) (owner : String) (now : Int) (row : EffectRow) : Bool :=
  row.effectId = lease.effectId && row.state = .running && row.leaseOwner = some owner &&
    row.leaseGeneration = lease.leaseGeneration && row.leaseExpiresAt.any (now < ·)

/-- Update exactly one row or report the lease as stale. -/
def changeOne (ledger : Ledger) (effectId : String) (p : EffectRow → Bool)
    (f : EffectRow → EffectRow) : CapabilityResult Ledger :=
  let (changed, updated) := ledger.updateEffects p f
  if changed = 1 then .ok updated else .error (staleLease effectId)

structure LeasePlan where
  ticket : Ticket
  owner : String
  now : Int

/-- The shared shape of the fenced mutations: on a fresh request the one row under
the lease changes, and the request is recorded. -/
def changeLeased (α : Type) [Serde α] (ledger : Ledger) (lease : EffectJob) (plan : LeasePlan)
    (result : α) (f : EffectRow → EffectRow) : CapabilityResult (Unit × Ledger) :=
  once ledger plan.ticket (fun _ : α => ()) do
    let _ ← persist (sqlInteger lease.leaseGeneration)
    let updated ← changeOne ledger lease.effectId (·.leasedTo lease plan.owner plan.now) f
    let recorded ← recordRequest updated plan.ticket (toJson result)
    .ok ((), recorded)

def EffectRow.renewed (expiresAt : Int) (row : EffectRow) : EffectRow :=
  { row with leaseExpiresAt := some expiresAt }

def renewPlan (policy : CapabilityPolicy) (lease : EffectJob) (requestId : String)
    (now : SystemTime) (extension : Duration) : CapabilityResult (LeasePlan × Int) := do
  validateIdentifier "effect mutation request id" requestId
  let owner ← effectLeaseOwner lease
  let now ← systemTimeMillis now
  let extension ← durationMillis extension "effect lease extension is too long"
  ensure (0 < extension) .invalidArgument "effect lease extension must be positive"
  .ok (⟨⟨requestId, .effectRenew, canonicalRequest (systemActor lease) policy.revision
    (.arr [.str "effect_renew_v1", toJson lease.effectId, toJson owner,
      toJson lease.leaseGeneration, toJson extension])⟩, owner, now⟩,
    saturatingAdd now extension)

def renewEffect (policy : CapabilityPolicy) (lease : EffectJob) (requestId : String)
    (now : SystemTime) (extension : Duration) (ledger : Ledger) :
    CapabilityResult (Unit × Ledger) := do
  let (plan, expiresAt) ← renewPlan policy lease requestId now extension
  changeLeased Json ledger lease plan .null (·.renewed expiresAt)

def EffectRow.released (error : String) (row : EffectRow) : EffectRow :=
  { row with
    state := .pending
    error := some error
    leaseOwner := none
    leaseExpiresAt := none }

def retryPlan (policy : CapabilityPolicy) (lease : EffectJob) (requestId : String)
    (now : SystemTime) (error : String) : CapabilityResult LeasePlan := do
  validateIdentifier "effect mutation request id" requestId
  let owner ← effectLeaseOwner lease
  let now ← systemTimeMillis now
  .ok ⟨⟨requestId, .effectRetry, canonicalRequest (systemActor lease) policy.revision
    (.arr [.str "effect_retry_v1", toJson lease.effectId, toJson owner,
      toJson lease.leaseGeneration, toJson error])⟩, owner, now⟩

def releaseEffectForRetry (policy : CapabilityPolicy) (lease : EffectJob) (requestId : String)
    (now : SystemTime) (error : String) (ledger : Ledger) :
    CapabilityResult (Unit × Ledger) := do
  let plan ← retryPlan policy lease requestId now error
  changeLeased Json ledger lease plan .null (·.released error)

def EffectResult.state : EffectResult → EffectState
  | .succeeded _ => .succeeded
  | .failed _ => .failed

def EffectResult.error : EffectResult → Option String
  | .succeeded _ => none
  | .failed error => some error

def EffectRow.finished (result : EffectResult) (row : EffectRow) : EffectRow :=
  { row with
    state := result.state
    error := result.error
    resultJson := some (toJson result)
    leaseOwner := none
    leaseExpiresAt := none }

def finishPlan (policy : CapabilityPolicy) (lease : EffectJob) (requestId : String)
    (now : SystemTime) (result : EffectResult) : CapabilityResult LeasePlan := do
  validateIdentifier "effect mutation request id" requestId
  let owner ← effectLeaseOwner lease
  let now ← systemTimeMillis now
  .ok ⟨⟨requestId, .effectFinish, canonicalRequest (systemActor lease) policy.revision
    (.arr [.str "effect_finish_v1", toJson lease.effectId, toJson owner,
      toJson lease.leaseGeneration, toJson result])⟩, owner, now⟩

def finishEffect (policy : CapabilityPolicy) (lease : EffectJob) (requestId : String)
    (now : SystemTime) (result : EffectResult) (ledger : Ledger) :
    CapabilityResult (Unit × Ledger) := do
  let plan ← finishPlan policy lease requestId now result
  changeLeased EffectResult ledger lease plan result (·.finished result)

def EffectRow.blockedFor (reason : String) (row : EffectRow) : EffectRow :=
  { row with
    state := .blocked
    error := some reason
    leaseOwner := none
    leaseExpiresAt := none }

def blockPlan (policy : CapabilityPolicy) (job : EffectJob) (requestId reason : String) :
    CapabilityResult Ticket := do
  validateIdentifier "effect authorization request id" requestId
  .ok ⟨requestId, .effectAuthorizationBlock, canonicalRequest (systemActor job) policy.revision
    (.arr [.str "effect_authorization_block_v1", toJson job.effectId, toJson job.leaseOwner,
      toJson job.leaseGeneration, toJson reason])⟩

def blockDecision (env : Ambient) (job : EffectJob) (reason : String) : DecisionRow where
  decisionId := env.uuid 0
  effectId := job.effectId
  decision := .blocked
  decisionJson := .obj [("decision", .str "blocked"), ("decision_id", toJson (env.uuid 0)),
    ("effect_id", toJson job.effectId), ("outcome_id", toJson job.outcomeId),
    ("reason", toJson reason), ("recorded_at_unix_millis", toJson (env.nowMillis 0)),
    ("request_id", toJson job.requestId)]
  recordedAt := env.nowMillis 0

/-- A running snapshot blocks the row under its lease, any other a pending row. -/
def blockRow (env : Ambient) (job : EffectJob) (reason : String) (ledger : Ledger) :
    CapabilityResult Ledger :=
  if job.state = .running then do
    let owner ← effectLeaseOwner job
    let _ ← persist (sqlInteger job.leaseGeneration)
    changeOne ledger job.effectId (·.leasedTo job owner (env.nowMillis 1)) (·.blockedFor reason)
  else
    changeOne ledger job.effectId (fun row => row.effectId = job.effectId && row.state = .pending)
      (·.blockedFor reason)

def blockEffectAuthorization (policy : CapabilityPolicy) (env : Ambient) (job : EffectJob)
    (requestId reason : String) (ledger : Ledger) : CapabilityResult (Unit × Ledger) := do
  let ticket ← blockPlan policy job requestId reason
  once ledger ticket (fun _ : Json => ()) do
    let decided ← persist (ledger.insertDecision (blockDecision env job reason))
    let updated ← blockRow env job reason decided
    let recorded ← recordRequest updated ticket .null
    .ok ((), recorded)

def EffectRow.unblocked (row : EffectRow) : EffectRow :=
  { row with state := .pending, error := none, leaseOwner := none, leaseExpiresAt := none }

def approvalPlan (policy : CapabilityPolicy) (authority : ApprovalAuthority)
    (requestId effectId : String) : CapabilityResult Ticket := do
  validateIdentifier "approval request id" requestId
  validateIdentifier "effect id" effectId
  .ok ⟨requestId, .privilegedApproval,
    canonicalRequest (.new authority.principal "privileged-approval" []) policy.revision
      (.arr [.str "privileged_approval_v1", toJson effectId])⟩

/-- The approval for a job whose terminal was admitted under a policy revision. -/
def unsignedApproval (env : Ambient) (principal : String) (job : EffectJob)
    (outcome : TerminalOutcome) (policyRevision : String) : PrivilegedApproval where
  approvalId := env.uuid 0
  principal := principal
  effectId := job.effectId
  outcomeId := outcome.outcomeId
  sessionId := outcome.sessionId
  cycleId := outcome.cycleId
  goalId := outcome.goalId
  actionKind := job.action.kind
  canonicalPayloadHash := actionPayloadHash job.action
  repository := outcome.repository
  policyRevision := policyRevision
  issuedAtUnixMillis := env.nowMillis 0
  signature := ""

def ApprovalAuthority.sign (authority : ApprovalAuthority) (approval : PrivilegedApproval) :
    PrivilegedApproval :=
  { approval with signature := approvalSignature authority.signingKey approval }

def draftApproval (env : Ambient) (authority : ApprovalAuthority) (effectId : String)
    (ledger : Ledger) : CapabilityResult PrivilegedApproval := do
  let some job ← queryEffectById ledger effectId
    | .error ⟨.invalidArgument, "effect job was not found"⟩
  ensure (job.state = .pending || job.state = .blocked) .stateTransitionRejected
    "privileged approval can be issued only for a pending or blocked effect"
  ensure job.action.privileged .permissionDenied
    "only merge and deploy effects require privileged approval"
  let outcome ← terminalForOutcomeId ledger job.outcomeId
  match outcome.payload with
  | .action payload =>
      .ok (authority.sign
        (unsignedApproval env authority.principal job outcome payload.admission.policyRevision))
  | _ => .error ⟨.stateTransitionRejected,
      "privileged effect is not linked to an action outcome"⟩

def issuePrivilegedApproval (policy : CapabilityPolicy) (env : Ambient)
    (authority : ApprovalAuthority) (requestId effectId : String) (ledger : Ledger) :
    CapabilityResult (PrivilegedApproval × Ledger) := do
  let ticket ← approvalPlan policy authority requestId effectId
  once ledger ticket id do
    let approval ← draftApproval env authority effectId ledger
    let decided ← persist (ledger.insertDecision ⟨approval.approvalId, approval.effectId, .approved,
      toJson approval, approval.issuedAtUnixMillis⟩)
    let (_, updated) := decided.updateEffects
      (fun row => row.effectId = approval.effectId && row.state = .blocked) EffectRow.unblocked
    let recorded ← recordRequest updated ticket (toJson approval)
    .ok (approval, recorded)

end Simard.TypedOoda
