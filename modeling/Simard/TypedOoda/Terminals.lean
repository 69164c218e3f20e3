import Simard.TypedOoda.Effects

/-! Recording what a cycle decided: actions with their effect job and engineer
claim, the other three terminals, and progress. A refused action becomes a
blocked terminal, so the refusal is durable too. -/
namespace Simard.TypedOoda
open Simard.Library

def validateIdentity (identity : TerminalRequestIdentity) : CapabilityResult Unit := do
  validateIdentifier "request id" identity.requestId
  validateIdentifier "session id" identity.sessionId
  validateIdentifier "cycle id" identity.cycleId
  validateIdentifier "goal id" identity.goalId

def validateActorTarget (actor : AuthenticatedToolContext) (identity : TerminalRequestIdentity) :
    CapabilityResult Unit := do
  validateIdentity identity
  ensure (actor.actorIdentity != "" && actor.sessionId = identity.sessionId) .unauthenticated
    "authenticated actor session does not match request session"
  validateIdentifier "actor identity" actor.actorIdentity
  ensure (actor.boundCycleId = some identity.cycleId && actor.boundGoalId = some identity.goalId)
    .authorizationScopeViolation
    "mutation target does not match the actor's server-bound cycle and goal"

def authorize (policy : CapabilityPolicy) (actor : AuthenticatedToolContext)
    (identity : TerminalRequestIdentity) (grant : CapabilityGrant) : CapabilityResult Unit := do
  validateActorTarget actor identity
  ensure (actor.allows grant && policy.allows grant) .permissionDenied
    "actor is not authorized for the requested capability"

def validateOpaque (policy : CapabilityPolicy) (name : String) (value : OpaqueBytes)
    (requireNonempty : Bool) : CapabilityResult Unit := do
  ensure (!(requireNonempty && value.asBytes.isEmpty)) .invalidArgument
    (name ++ " must not be empty")
  ensure (value.asBytes.length ≤ policy.maxSemanticPayloadBytes) .payloadTooLarge
    (name ++ " exceeds " ++ toString policy.maxSemanticPayloadBytes ++ " byte policy limit")

def validateCommon (policy : CapabilityPolicy) (rawSemantic : OpaqueBytes)
    (evidence : List EvidenceRef) : CapabilityResult Unit := do
  validateOpaque policy "raw semantic" rawSemantic false
  validateEvidence evidence

def validateGovernedRepository (policy : CapabilityPolicy) (repository : RepositoryRef) :
    CapabilityResult Unit := do
  validateRepository repository
  ensure (decide (repository ∈ policy.allowedRepositories) ||
      policy.allowedRepositoryOwners.contains repository.owner)
    .permissionDenied "repository is outside capability policy"

def authorizeActionScope (actor : AuthenticatedToolContext) (action : Action) :
    CapabilityResult Unit :=
  match action.repository with
  | none => .ok ()
  | some repository =>
      match actor.boundRepository with
      | none => .error ⟨.permissionDenied, "mutating actor is not bound to a goal repository"⟩
      | some bound =>
          ensure (repository = bound) .permissionDenied
            ("requested repository " ++ repository.owner ++ "/" ++ repository.name ++
              " does not match authenticated goal repository " ++ bound.owner ++ "/" ++ bound.name)

def authorizeEngineerScope (actor : AuthenticatedToolContext) (action : Action) :
    CapabilityResult Unit :=
  match action with
  | .spawnEngineer spawn =>
      ensure (spawn.baseType = .copilot &&
          spawn.requestedPermissions.isSubset actor.engineerPermissions &&
          spawn.requestedPermissions.elems.all (· ∈ copilotEngineerPermissions))
        .authorizationScopeViolation
        "engineer base_type or requested permissions exceed authenticated actor scope"
  | _ => .ok ()

def digestDigits (digest : String) : List Char :=
  if "sha256:".toList.isPrefixOf digest.toList then digest.toList.drop 7 else []

def validateAction (policy : CapabilityPolicy) : Action → CapabilityResult Unit
  | .spawnEngineer value => do
      ensure (value.baseType = .copilot) .authorizationScopeViolation
        "engineer dispatch requires the canonical copilot base_type"
      validateOpaque policy "engineer task" value.task true
      validateGovernedRepository policy value.repository
      validateIdentifier "claim key" value.claimKey
      ensure (!value.requestedPermissions.isEmpty) .invalidArgument
        "spawn engineer requires at least one requested permission"
      ensure (value.requestedPermissions.isSubset policy.allowedEngineerPermissions)
        .permissionDenied "engineer requested a permission outside capability policy"
  | .fileIssue value => do
      validateGovernedRepository policy value.repository
      validateOpaque policy "issue title" value.title true
      validateOpaque policy "issue body" value.body false
      value.labels.forM (validateIdentifier "issue label")
  | .requestMerge value => do
      validateGovernedRepository policy value.pullRequest.repository
      ensure (value.pullRequest.number != 0) .invalidArgument "pull request number must be nonzero"
      validateSha value.expectedHeadSha
      ensure (value.strategy = "squash" || value.strategy = "merge" || value.strategy = "rebase")
        .invalidArgument "unsupported merge strategy"
  | .requestDeploy value => do
      validateIdentifier "deployment environment" value.environment.name
      ensure (policy.allowedDeploymentEnvironments.contains value.environment.name)
        .permissionDenied "deployment environment is outside capability policy"
      validateSha value.artifact.sourceCommit
      ensure ((digestDigits value.artifact.digest).length = 64 &&
          (digestDigits value.artifact.digest).all isHexDigit) .invalidArgument
        "artifact digest must be sha256 followed by 64 hexadecimal characters"

def admitAction (policy : CapabilityPolicy) (action : Action) (snapshot : AdmissionSnapshot) :
    CapabilityResult Unit := do
  ensure (snapshot.policyRevision = policy.revision) .admissionRejected
    "admission policy revision does not match the active capability policy"
  ensure (snapshot.diskUsedPercent ≤ policy.maxDiskUsedPercent) .admissionRejected
    "disk usage exceeds admission ceiling"
  match action with
  | .spawnEngineer spawn => do
      ensure (snapshot.concurrentEngineers < policy.maxConcurrentEngineers) .admissionRejected
        "engineer concurrency limit reached"
      ensure (!snapshot.activeClaims.contains spawn.claimKey) .admissionRejected
        "engineer claim conflicts with active work"
  | _ => .ok ()

def ensureCycleOpen (ledger : Ledger) (identity : TerminalRequestIdentity) :
    CapabilityResult Unit :=
  ensure (!ledger.terminalOutcomes.any fun row =>
      row.sessionId = identity.sessionId && row.cycleId = identity.cycleId)
    .terminalAlreadyRecorded "cycle already has a terminal outcome"

def newOutcome (env : Ambient) (actor : AuthenticatedToolContext)
    (identity : TerminalRequestIdentity) (payload : TypedOutcomePayload)
    (rawSemantic : OpaqueBytes) (evidence : List EvidenceRef) : TerminalOutcome where
  outcomeId := env.uuid 0
  requestId := identity.requestId
  sessionId := identity.sessionId
  actorIdentity := actor.actorIdentity
  repository := actor.boundRepository
  goalId := identity.goalId
  cycleId := identity.cycleId
  kind := payload.kind
  payload := payload
  rawSemantic := rawSemantic
  evidence := evidence
  recordedAtUnixMillis := env.nowMillis 0

def insertOutcome (ledger : Ledger) (outcome : TerminalOutcome) (ticket : Ticket) :
    CapabilityResult Ledger := do
  let inserted ← persist (ledger.insertTerminal ⟨outcome.requestId, ticket.fingerprint,
    outcome.sessionId, outcome.cycleId, outcome.outcomeId, toJson outcome⟩)
  recordRequest inserted ticket (toJson outcome)

def commitTerminal (env : Ambient) (actor : AuthenticatedToolContext)
    (identity : TerminalRequestIdentity) (payload : TypedOutcomePayload)
    (rawSemantic : OpaqueBytes) (evidence : List EvidenceRef) (ticket : Ticket)
    (ledger : Ledger) : CapabilityResult (TerminalOutcome × Ledger) :=
  once ledger ticket id do
    ensureCycleOpen ledger identity
    let outcome := newOutcome env actor identity payload rawSemantic evidence
    let recorded ← insertOutcome ledger outcome ticket
    .ok (outcome, recorded)

/-- A terminal's registry entry: the request document under the actor's scope. -/
def terminalTicket (policy : CapabilityPolicy) (actor : AuthenticatedToolContext)
    (identity : TerminalRequestIdentity) (request : Json) : Ticket :=
  ⟨identity.requestId, .terminal, canonicalRequest actor policy.revision request⟩

def recordNoActionPlan (policy : CapabilityPolicy) (actor : AuthenticatedToolContext)
    (request : RecordNoActionRequest) : CapabilityResult Ticket := do
  authorize policy actor request.identity .recordNoAction
  validateCommon policy request.rawSemantic request.evidence
  validateOpaque policy "reason" request.reason true
  .ok (terminalTicket policy actor request.identity (toJson request))

def recordNoAction (policy : CapabilityPolicy) (env : Ambient) (actor : AuthenticatedToolContext)
    (request : RecordNoActionRequest) (ledger : Ledger) :
    CapabilityResult (TerminalOutcome × Ledger) := do
  let ticket ← recordNoActionPlan policy actor request
  commitTerminal env actor request.identity (.noAction ⟨request.reason⟩) request.rawSemantic
    request.evidence ticket ledger

def recordBlockedPlan (policy : CapabilityPolicy) (actor : AuthenticatedToolContext)
    (request : RecordBlockedRequest) : CapabilityResult Ticket := do
  authorize policy actor request.identity .recordBlocked
  validateCommon policy request.rawSemantic request.evidence
  validateOpaque policy "reason" request.reason true
  .ok (terminalTicket policy actor request.identity (toJson request))

def recordBlocked (policy : CapabilityPolicy) (env : Ambient) (actor : AuthenticatedToolContext)
    (request : RecordBlockedRequest) (ledger : Ledger) :
    CapabilityResult (TerminalOutcome × Ledger) := do
  let ticket ← recordBlockedPlan policy actor request
  commitTerminal env actor request.identity
    (.blocked ⟨request.reason, request.blocker, request.retry⟩) request.rawSemantic
    request.evidence ticket ledger

def recordCompletedPlan (policy : CapabilityPolicy) (actor : AuthenticatedToolContext)
    (request : RecordCompletedRequest) : CapabilityResult Ticket := do
  authorize policy actor request.identity .recordCompleted
  validateCommon policy request.rawSemantic request.evidence
  validateOpaque policy "completion summary" request.summary true
  validateIdentifier "completion criterion" request.completion.criterionId
  validateEvidence request.completion.verificationEvidence
  ensure (!request.completion.verificationEvidence.isEmpty) .stateTransitionRejected
    "completion requires typed verification evidence"
  ensure (request.completion.verificationEvidence.all (· ∈ request.evidence))
    .stateTransitionRejected
    "completion verification references must also be attached as outcome evidence"
  .ok (terminalTicket policy actor request.identity (toJson request))

def recordCompleted (policy : CapabilityPolicy) (env : Ambient) (actor : AuthenticatedToolContext)
    (request : RecordCompletedRequest) (ledger : Ledger) :
    CapabilityResult (TerminalOutcome × Ledger) := do
  let ticket ← recordCompletedPlan policy actor request
  commitTerminal env actor request.identity (.completed ⟨request.summary, request.completion⟩)
    request.rawSemantic request.evidence ticket ledger

/-- How an action request will be recorded. -/
inductive ActionPlan where
  | granted (ticket : Ticket)
  | denied (ticket : Ticket) (payload : TypedOutcomePayload)

def ActionPlan.ticket : ActionPlan → Ticket
  | .granted ticket => ticket
  | .denied ticket _ => ticket

def refusalDocument (grant : CapabilityGrant) (request : RecordActionRequest)
    (observeOnlyEnabled : Bool) : Json :=
  .arr [.str "authorization_blocked", toJson grant, toJson request, toJson observeOnlyEnabled]

def recordActionDenied (policy : CapabilityPolicy) (observeOnlyEnabled : Bool)
    (actor : AuthenticatedToolContext) (request : RecordActionRequest) (grant : CapabilityGrant) :
    CapabilityResult ActionPlan := do
  validateCommon policy request.rawSemantic request.evidence
  let reason := if actor.observeOnly || observeOnlyEnabled then
      "SIMARD_OBSERVE_ONLY denied the requested mutation"
    else "the authenticated actor is not granted the requested mutation"
  .ok (.denied
    (terminalTicket policy actor request.identity
      (refusalDocument grant request observeOnlyEnabled))
    (.blocked ⟨.ofText reason, .authorization grant.debug,
      .afterSignal "simard-capability-policy" policy.revision⟩))

/-- A check whose permission failure is recorded as a denial instead of returned. -/
def orDenied (check : CapabilityResult Unit) (denied : CapabilityResult ActionPlan)
    (next : CapabilityResult ActionPlan) : CapabilityResult ActionPlan :=
  match check with
  | .ok () => next
  | .error error => if error.code = .permissionDenied then denied else .error error

def recordActionPlan (policy : CapabilityPolicy) (observeOnlyEnabled : Bool)
    (actor : AuthenticatedToolContext) (request : RecordActionRequest) :
    CapabilityResult ActionPlan := do
  validateActorTarget actor request.identity
  let grant := CapabilityGrant.recordAction request.action.kind
  let denied := recordActionDenied policy observeOnlyEnabled actor request grant
  if actor.observeOnly || observeOnlyEnabled || !actor.allows grant || !policy.allows grant then
    denied
  else do
    authorize policy actor request.identity grant
    orDenied (authorizeActionScope actor request.action) denied do
      authorizeEngineerScope actor request.action
      validateCommon policy request.rawSemantic request.evidence
      orDenied (validateAction policy request.action) denied
        (.ok (.granted (terminalTicket policy actor request.identity (toJson request))))

def expectedClaim (repository : RepositoryRef) (goalId : String) : String :=
  repository.owner ++ "/" ++ repository.name ++ ":" ++ goalId

def checkClaimKey (identity : TerminalRequestIdentity) : Action → CapabilityResult Unit
  | .spawnEngineer spawn =>
      ensure (spawn.claimKey = expectedClaim spawn.repository identity.goalId) .invalidArgument
        ("engineer claim key must be " ++ quoted (expectedClaim spawn.repository identity.goalId))
  | _ => .ok ()

def claimIsLive (env : Ambient) (claimKey : String) : Bool :=
  match env.engineerLiveness with
  | some isClaimLive => isClaimLive claimKey
  | none => true

def claimRejected (claimKey : String) : CapabilityError :=
  ⟨.admissionRejected, "engineer claim is already active: " ++ claimKey⟩

/-- Insert the claim; on a collision a dead engineer's claim is deleted and the
insertion tried once more. -/
def insertEngineerClaim (env : Ambient) (ledger : Ledger) (row : ClaimRow) :
    CapabilityResult Ledger :=
  match ledger.insertClaim row with
  | .ok inserted => .ok inserted
  | .error error =>
      if isConstraint error then
        if claimIsLive env row.claimKey then .error (claimRejected row.claimKey)
        else ((ledger.deleteClaim row.claimKey).insertClaim row).mapError fun retryError =>
          if isConstraint retryError then claimRejected row.claimKey else persistence retryError
      else .error (persistence error)

def insertActionClaim (env : Ambient) (ledger : Ledger) (outcome : TerminalOutcome) :
    Action → CapabilityResult Ledger
  | .spawnEngineer spawn =>
      insertEngineerClaim env ledger ⟨spawn.claimKey, outcome.outcomeId, outcome.requestId⟩
  | _ => .ok ledger

def ActionKind.effectKind : ActionKind → String
  | .spawnEngineer => "spawn_engineer"
  | .fileIssue => "file_issue"
  | .requestMerge => "request_merge"
  | .requestDeploy => "request_deploy"

def newEffect (effectId : String) (outcome : TerminalOutcome) (action : Action) : EffectRow where
  effectId := effectId
  outcomeId := outcome.outcomeId
  requestId := outcome.requestId
  kind := action.kind.effectKind
  state := .pending
  actionJson := toJson action
  attempt := 0
  leaseGeneration := 0
  leaseOwner := none
  leaseExpiresAt := none
  error := none
  resultJson := none

def insertEffect (env : Ambient) (ledger : Ledger) (outcome : TerminalOutcome) (action : Action) :
    CapabilityResult Ledger :=
  persist (ledger.insertEffectJob (newEffect (env.uuid 1) outcome action))

def actionOutcome (env : Ambient) (actor : AuthenticatedToolContext)
    (request : RecordActionRequest) (admission : AdmissionSnapshot) : TerminalOutcome :=
  newOutcome env actor request.identity (.action ⟨request.action, ⟨admission.policyRevision⟩⟩)
    request.rawSemantic request.evidence

def recordGranted (policy : CapabilityPolicy) (env : Ambient) (actor : AuthenticatedToolContext)
    (request : RecordActionRequest) (admission : AdmissionSnapshot) (ticket : Ticket)
    (ledger : Ledger) : CapabilityResult (TerminalOutcome × Ledger) :=
  once ledger ticket id do
    checkClaimKey request.identity request.action
    admitAction policy request.action admission
    ensureCycleOpen ledger request.identity
    let outcome := actionOutcome env actor request admission
    let recorded ← insertOutcome ledger outcome ticket
    let claimed ← insertActionClaim env recorded outcome request.action
    let queued ← insertEffect env claimed outcome request.action
    .ok (outcome, queued)

def recordAction (policy : CapabilityPolicy) (env : Ambient) (actor : AuthenticatedToolContext)
    (request : RecordActionRequest) (admission : AdmissionSnapshot) (ledger : Ledger) :
    CapabilityResult (TerminalOutcome × Ledger) := do
  match ← recordActionPlan policy env.observeOnlyEnabled actor request with
  | .granted ticket => recordGranted policy env actor request admission ticket ledger
  | .denied ticket payload =>
      commitTerminal env actor request.identity payload request.rawSemantic request.evidence ticket
        ledger

def newProgress (env : Ambient) (actor : AuthenticatedToolContext)
    (request : RecordProgressRequest) : ProgressRecord where
  progressId := env.uuid 0
  requestId := request.identity.requestId
  sessionId := request.identity.sessionId
  actorIdentity := actor.actorIdentity
  goalId := request.identity.goalId
  cycleId := request.identity.cycleId
  percent := request.percent
  summary := request.summary
  evidence := request.evidence
  recordedAtUnixMillis := env.nowMillis 0

def recordProgressPlan (policy : CapabilityPolicy) (actor : AuthenticatedToolContext)
    (request : RecordProgressRequest) : CapabilityResult Ticket := do
  authorize policy actor request.identity .recordProgress
  validateOpaque policy "progress summary" request.summary true
  validateEvidence request.evidence
  ensure (request.percent ≤ 100) .invalidArgument "progress percent must be in 0..=100"
  .ok ⟨request.identity.requestId, .progress,
    canonicalRequest actor policy.revision (toJson request)⟩

def recordProgress (policy : CapabilityPolicy) (env : Ambient) (actor : AuthenticatedToolContext)
    (request : RecordProgressRequest) (ledger : Ledger) :
    CapabilityResult (ProgressRecord × Ledger) := do
  let ticket ← recordProgressPlan policy actor request
  once ledger ticket id do
    ensureCycleOpen ledger request.identity
    let record := newProgress env actor request
    let inserted ← persist (ledger.insertProgress ⟨record.requestId, ticket.fingerprint,
      record.sessionId, record.cycleId, toJson record⟩)
    let recorded ← recordRequest inserted ticket (toJson record)
    .ok (record, recorded)

def releaseEngineerClaim (claimKey : String) (ledger : Ledger) : CapabilityResult (Unit × Ledger) :=
  .ok ((), ledger.deleteClaim claimKey)

end Simard.TypedOoda
