import Simard.TypedOoda.Terminals

/-! Actor sessions: a lease binds a session to one identity and scope and to the
cycle and goal of its latest registration, and a secret token proves it. Only
the token's digest is stored. -/
namespace Simard.TypedOoda
open Simard.Library

structure ActorSessionLease where
  token : String
  expiresAtUnixMillis : Int
  deriving DecidableEq

instance : Serde ActorSessionLease where
  toJson a := .obj [("token", toJson a.token),
    ("expires_at_unix_millis", toJson a.expiresAtUnixMillis)]
  fromJson document := do
    some ⟨← document.get "token", ← document.get "expires_at_unix_millis"⟩
  fromJson_toJson a := by simp

structure ActorBinding where
  cycleId : String
  goalId : String
  actorIdentity : String
  repositoryJson : Json
  grantsJson : Json
  engineerPermissionsJson : Json
  workingDirectoryJson : Option Json
  observeOnly : Bool
  deriving DecidableEq

/-- What a reused session may not change. -/
structure ActorScopeKey where
  actorIdentity : String
  repositoryJson : Json
  grantsJson : Json
  engineerPermissionsJson : Json
  workingDirectoryJson : Option Json
  observeOnly : Bool
  deriving DecidableEq

namespace ActorBinding

def new (actor : AuthenticatedToolContext) (cycleId goalId : String) (repository : RepositoryRef) :
    ActorBinding where
  cycleId := cycleId
  goalId := goalId
  actorIdentity := actor.actorIdentity
  repositoryJson := toJson repository
  grantsJson := toJson actor.grants
  engineerPermissionsJson := toJson actor.engineerPermissions
  workingDirectoryJson := actor.boundWorkingDirectory.map toJson
  observeOnly := actor.observeOnly

def scopeKey (binding : ActorBinding) : ActorScopeKey where
  actorIdentity := binding.actorIdentity
  repositoryJson := binding.repositoryJson
  grantsJson := binding.grantsJson
  engineerPermissionsJson := binding.engineerPermissionsJson
  workingDirectoryJson := binding.workingDirectoryJson
  observeOnly := binding.observeOnly

def intoContext (binding : ActorBinding) (sessionId : String) :
    CapabilityResult AuthenticatedToolContext := do
  let repository : RepositoryRef ← decode binding.repositoryJson
  let grants : BTreeSet CapabilityGrant ← decode binding.grantsJson
  let engineerPermissions : BTreeSet String ← decode binding.engineerPermissionsJson
  let workingDirectory : Option String ← binding.workingDirectoryJson.mapM decode
  .ok {
    actorIdentity := binding.actorIdentity
    sessionId
    grants
    boundRepository := some repository
    boundCycleId := some binding.cycleId
    boundGoalId := some binding.goalId
    boundWorkingDirectory := workingDirectory
    engineerPermissions
    observeOnly := binding.observeOnly }

def row (binding : ActorBinding) (sessionId tokenHash : String) (expiresAt : Int) : SessionRow where
  sessionId := sessionId
  cycleId := binding.cycleId
  goalId := binding.goalId
  actorIdentity := binding.actorIdentity
  repositoryJson := binding.repositoryJson
  grantsJson := binding.grantsJson
  engineerPermissionsJson := binding.engineerPermissionsJson
  workingDirectoryJson := binding.workingDirectoryJson
  observeOnly := binding.observeOnly
  tokenHash := tokenHash
  expiresAt := expiresAt

end ActorBinding

def actorBindingFromRow (row : SessionRow) : ActorBinding where
  cycleId := row.cycleId
  goalId := row.goalId
  actorIdentity := row.actorIdentity
  repositoryJson := row.repositoryJson
  grantsJson := row.grantsJson
  engineerPermissionsJson := row.engineerPermissionsJson
  workingDirectoryJson := row.workingDirectoryJson
  observeOnly := row.observeOnly

def loadActorBinding (ledger : Ledger) (sessionId : String) : Option ActorBinding :=
  (ledger.session sessionId).map actorBindingFromRow

structure SessionPlan where
  ticket : Ticket
  binding : ActorBinding
  ttlMillis : Int

def registerPlan (policy : CapabilityPolicy) (actor : AuthenticatedToolContext)
    (requestId cycleId goalId : String) (ttl : Duration) : CapabilityResult SessionPlan := do
  validateIdentifier "actor registration request id" requestId
  validateIdentifier "actor identity" actor.actorIdentity
  validateIdentifier "session id" actor.sessionId
  validateIdentifier "cycle id" cycleId
  validateIdentifier "goal id" goalId
  let some repository := actor.boundRepository
    | .error ⟨.permissionDenied, "actor session must be bound to one repository"⟩
  match actor.boundCycleId, actor.boundGoalId with
  | some boundCycle, some boundGoal =>
      ensure (boundCycle = cycleId && boundGoal = goalId) .authorizationScopeViolation
        "actor registration target does not match its existing cycle and goal binding"
  | none, none => .ok ()
  | _, _ => .error ⟨.authorizationScopeViolation,
      "actor registration target does not match its existing cycle and goal binding"⟩
  validateGovernedRepository policy repository
  let ttlMillis ← durationMillis ttl "actor session lease is too long"
  ensure (0 < ttlMillis) .invalidArgument "actor session lease must be positive"
  .ok ⟨⟨requestId, .actorSession, canonicalRequest actor policy.revision
      (.arr [.str "actor_session_v1", toJson cycleId, toJson goalId, toJson ttlMillis])⟩,
    .new actor cycleId goalId repository, ttlMillis⟩

def registerActorSession (policy : CapabilityPolicy) (env : Ambient)
    (actor : AuthenticatedToolContext) (requestId cycleId goalId : String) (ttl : Duration)
    (ledger : Ledger) : CapabilityResult (ActorSessionLease × Ledger) := do
  let plan ← registerPlan policy actor requestId cycleId goalId ttl
  once ledger plan.ticket id do
    let swept := ledger.deleteExpiredSessions (env.nowMillis 0)
    ensure ((loadActorBinding swept actor.sessionId).all fun existing =>
        existing.scopeKey = plan.binding.scopeKey) .authorizationScopeViolation
      "actor session is already bound to a different identity or authorization scope"
    let token := env.uuid 0
    let expiresAt := saturatingAdd (env.nowMillis 1) plan.ttlMillis
    let leased := swept.upsertSession
      (plan.binding.row actor.sessionId (sha256Hex (utf8 token.toList)) expiresAt)
    let recorded ← recordRequest leased plan.ticket (toJson (ActorSessionLease.mk token expiresAt))
    .ok (⟨token, expiresAt⟩, recorded)

def authenticateActorSession (env : Ambient) (token sessionId cycleId goalId : String)
    (ledger : Ledger) : CapabilityResult AuthenticatedToolContext := do
  validateIdentifier "session id" sessionId
  validateIdentifier "cycle id" cycleId
  validateIdentifier "goal id" goalId
  let some stored := ledger.session sessionId
    | .error ⟨.unauthenticated, "actor session lease was not found"⟩
  if stored.cycleId != cycleId || stored.goalId != goalId || stored.expiresAt < env.nowMillis 0 ||
      stored.tokenHash != sha256Hex (utf8 token.toList) then
    .error ⟨.unauthenticated, "actor session lease is expired or does not match the invocation"⟩
  else (actorBindingFromRow stored).intoContext sessionId

def purgeActorSessions (ledger : Ledger) : CapabilityResult (Unit × Ledger) :=
  .ok ((), { ledger with actorSessions := [] })

end Simard.TypedOoda
